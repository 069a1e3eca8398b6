/-
The SHA-2 family: SHA-224 and SHA-256 over blocks of 64 bytes, SHA-384 and SHA-512 over blocks of 128.

The members of each pair differ in the words they start from and in how much of the last state is the digest.
-/
import Depot.Hash.Block
import Depot.Hash.Words

namespace Depot.Hash.Sha2

/-! ## Words of 32 bits -/

/-- one constant for each round: the fraction of a prime's cube root -/
def constants32 : Array UInt32 := #[
    0x428a2f98, 0x71374491, 0xb5c0fbcf, 0xe9b5dba5, 0x3956c25b, 0x59f111f1, 0x923f82a4, 0xab1c5ed5, 0xd807aa98,
    0x12835b01, 0x243185be, 0x550c7dc3, 0x72be5d74, 0x80deb1fe, 0x9bdc06a7, 0xc19bf174, 0xe49b69c1, 0xefbe4786,
    0x0fc19dc6, 0x240ca1cc, 0x2de92c6f, 0x4a7484aa, 0x5cb0a9dc, 0x76f988da, 0x983e5152, 0xa831c66d, 0xb00327c8,
    0xbf597fc7, 0xc6e00bf3, 0xd5a79147, 0x06ca6351, 0x14292967, 0x27b70a85, 0x2e1b2138, 0x4d2c6dfc, 0x53380d13,
    0x650a7354, 0x766a0abb, 0x81c2c92e, 0x92722c85, 0xa2bfe8a1, 0xa81a664b, 0xc24b8b70, 0xc76c51a3, 0xd192e819,
    0xd6990624, 0xf40e3585, 0x106aa070, 0x19a4c116, 0x1e376c08, 0x2748774c, 0x34b0bcb5, 0x391c0cb3, 0x4ed8aa4a,
    0x5b9cca4f, 0x682e6ff3, 0x748f82ee, 0x78a5636f, 0x84c87814, 0x8cc70208, 0x90befffa, 0xa4506ceb, 0xbef9a3f7,
    0xc67178f2]

/-- the eight words of the state and the bytes absorbed -/
structure State32 where
  words : Array UInt32
  size : Nat

def schedule32 (block : ByteArray) : Array UInt32 :=
  (List.range 48).foldl (fun w i =>
    let x := word32 w (i + 1)
    let y := word32 w (i + 14)
    let s0 := turnRight32 x 7 ^^^ turnRight32 x 18 ^^^ (x >>> 3)
    let s1 := turnRight32 y 17 ^^^ turnRight32 y 19 ^^^ (y >>> 10)
    w.push (word32 w i + s0 + word32 w (i + 9) + s1))
    (bigWords32 16 block)

def round32 (w : Array UInt32) (s : Array UInt32) (i : Nat) : Array UInt32 :=
  let a := word32 s 0
  let b := word32 s 1
  let c := word32 s 2
  let e := word32 s 4
  let s1 := turnRight32 e 6 ^^^ turnRight32 e 11 ^^^ turnRight32 e 25
  let choice := (e &&& word32 s 5) ^^^ (~~~e &&& word32 s 6)
  let t1 := word32 s 7 + s1 + choice + word32 constants32 i + word32 w i
  let s0 := turnRight32 a 2 ^^^ turnRight32 a 13 ^^^ turnRight32 a 22
  let majority := (a &&& b) ^^^ (a &&& c) ^^^ (b &&& c)
  #[t1 + (s0 + majority), a, b, c, word32 s 3 + t1, e, word32 s 5, word32 s 6]

def absorb32 (s : State32) (block : ByteArray) : State32 :=
  ⟨addWords32 s.words ((List.range 64).foldl (round32 (schedule32 block)) s.words), s.size + 64⟩

/-- the digest after the last bytes, of so many bytes -/
def finish32 (digestSize : Nat) (s : State32) (tail : ByteArray) : ByteArray :=
  let bits := bigBytes 8 ((s.size + tail.size) * 8)
  let last := tail ++ ofBytes (padding 64 8 bits tail.size)
  let s := absorb32 s (last.extract 0 64)
  let s := if last.size > 64 then absorb32 s (last.extract 64 128) else s
  ofBytes ((s.words.toList.flatMap fun w => bigBytes 4 w.toNat).take digestSize)

/-- the hash function that starts from given words -/
def function32 (start : Array UInt32) (digestSize : Nat) : BlockHash where
  State := State32
  start := ⟨start, 0⟩
  blockSize := 64
  keepsLast := false
  absorb := absorb32
  finish := finish32 digestSize
  blockSize_pos := size64_pos

def start224 : Array UInt32 := #[
    0xc1059ed8, 0x367cd507, 0x3070dd17, 0xf70e5939, 0xffc00b31, 0x68581511, 0x64f98fa7, 0xbefa4fa4]

def start256 : Array UInt32 := #[
    0x6a09e667, 0xbb67ae85, 0x3c6ef372, 0xa54ff53a, 0x510e527f, 0x9b05688c, 0x1f83d9ab, 0x5be0cd19]

def sha224 : BlockHash := function32 start224 28

def sha256 : BlockHash := function32 start256 32

/-! ## Words of 64 bits -/

/-- one constant for each round: the fraction of a prime's cube root -/
def constants64 : Array UInt64 := #[
    0x428a2f98d728ae22, 0x7137449123ef65cd, 0xb5c0fbcfec4d3b2f, 0xe9b5dba58189dbbc, 0x3956c25bf348b538,
    0x59f111f1b605d019, 0x923f82a4af194f9b, 0xab1c5ed5da6d8118, 0xd807aa98a3030242, 0x12835b0145706fbe,
    0x243185be4ee4b28c, 0x550c7dc3d5ffb4e2, 0x72be5d74f27b896f, 0x80deb1fe3b1696b1, 0x9bdc06a725c71235,
    0xc19bf174cf692694, 0xe49b69c19ef14ad2, 0xefbe4786384f25e3, 0x0fc19dc68b8cd5b5, 0x240ca1cc77ac9c65,
    0x2de92c6f592b0275, 0x4a7484aa6ea6e483, 0x5cb0a9dcbd41fbd4, 0x76f988da831153b5, 0x983e5152ee66dfab,
    0xa831c66d2db43210, 0xb00327c898fb213f, 0xbf597fc7beef0ee4, 0xc6e00bf33da88fc2, 0xd5a79147930aa725,
    0x06ca6351e003826f, 0x142929670a0e6e70, 0x27b70a8546d22ffc, 0x2e1b21385c26c926, 0x4d2c6dfc5ac42aed,
    0x53380d139d95b3df, 0x650a73548baf63de, 0x766a0abb3c77b2a8, 0x81c2c92e47edaee6, 0x92722c851482353b,
    0xa2bfe8a14cf10364, 0xa81a664bbc423001, 0xc24b8b70d0f89791, 0xc76c51a30654be30, 0xd192e819d6ef5218,
    0xd69906245565a910, 0xf40e35855771202a, 0x106aa07032bbd1b8, 0x19a4c116b8d2d0c8, 0x1e376c085141ab53,
    0x2748774cdf8eeb99, 0x34b0bcb5e19b48a8, 0x391c0cb3c5c95a63, 0x4ed8aa4ae3418acb, 0x5b9cca4f7763e373,
    0x682e6ff3d6b2b8a3, 0x748f82ee5defb2fc, 0x78a5636f43172f60, 0x84c87814a1f0ab72, 0x8cc702081a6439ec,
    0x90befffa23631e28, 0xa4506cebde82bde9, 0xbef9a3f7b2c67915, 0xc67178f2e372532b, 0xca273eceea26619c,
    0xd186b8c721c0c207, 0xeada7dd6cde0eb1e, 0xf57d4f7fee6ed178, 0x06f067aa72176fba, 0x0a637dc5a2c898a6,
    0x113f9804bef90dae, 0x1b710b35131c471b, 0x28db77f523047d84, 0x32caab7b40c72493, 0x3c9ebe0a15c9bebc,
    0x431d67c49c100d4c, 0x4cc5d4becb3e42b6, 0x597f299cfc657e2a, 0x5fcb6fab3ad6faec, 0x6c44198c4a475817]

/-- the eight words of the state and the bytes absorbed -/
structure State64 where
  words : Array UInt64
  size : Nat

def schedule64 (block : ByteArray) : Array UInt64 :=
  (List.range 64).foldl (fun w i =>
    let x := word64 w (i + 1)
    let y := word64 w (i + 14)
    let s0 := turnRight64 x 1 ^^^ turnRight64 x 8 ^^^ (x >>> 7)
    let s1 := turnRight64 y 19 ^^^ turnRight64 y 61 ^^^ (y >>> 6)
    w.push (word64 w i + s0 + word64 w (i + 9) + s1))
    (bigWords64 16 block)

def round64 (w : Array UInt64) (s : Array UInt64) (i : Nat) : Array UInt64 :=
  let a := word64 s 0
  let b := word64 s 1
  let c := word64 s 2
  let e := word64 s 4
  let s1 := turnRight64 e 14 ^^^ turnRight64 e 18 ^^^ turnRight64 e 41
  let choice := (e &&& word64 s 5) ^^^ (~~~e &&& word64 s 6)
  let t1 := word64 s 7 + s1 + choice + word64 constants64 i + word64 w i
  let s0 := turnRight64 a 28 ^^^ turnRight64 a 34 ^^^ turnRight64 a 39
  let majority := (a &&& b) ^^^ (a &&& c) ^^^ (b &&& c)
  #[t1 + (s0 + majority), a, b, c, word64 s 3 + t1, e, word64 s 5, word64 s 6]

def absorb64 (s : State64) (block : ByteArray) : State64 :=
  ⟨addWords64 s.words ((List.range 80).foldl (round64 (schedule64 block)) s.words), s.size + 128⟩

/-- the digest after the last bytes, of so many bytes -/
def finish64 (digestSize : Nat) (s : State64) (tail : ByteArray) : ByteArray :=
  let bits := bigBytes 16 ((s.size + tail.size) * 8)
  let last := tail ++ ofBytes (padding 128 16 bits tail.size)
  let s := absorb64 s (last.extract 0 128)
  let s := if last.size > 128 then absorb64 s (last.extract 128 256) else s
  ofBytes ((s.words.toList.flatMap fun w => bigBytes 8 w.toNat).take digestSize)

/-- the hash function that starts from given words -/
def function64 (start : Array UInt64) (digestSize : Nat) : BlockHash where
  State := State64
  start := ⟨start, 0⟩
  blockSize := 128
  keepsLast := false
  absorb := absorb64
  finish := finish64 digestSize
  blockSize_pos := size128_pos

def start384 : Array UInt64 := #[
    0xcbbb9d5dc1059ed8, 0x629a292a367cd507, 0x9159015a3070dd17, 0x152fecd8f70e5939, 0x67332667ffc00b31,
    0x8eb44a8768581511, 0xdb0c2e0d64f98fa7, 0x47b5481dbefa4fa4]

def start512 : Array UInt64 := #[
    0x6a09e667f3bcc908, 0xbb67ae8584caa73b, 0x3c6ef372fe94f82b, 0xa54ff53a5f1d36f1, 0x510e527fade682d1,
    0x9b05688c2b3e6c1f, 0x1f83d9abfb41bd6b, 0x5be0cd19137e2179]

def sha384 : BlockHash := function64 start384 48

def sha512 : BlockHash := function64 start512 64

end Depot.Hash.Sha2
