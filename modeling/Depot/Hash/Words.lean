/-
Words of 32 and 64 bits in rows of bytes, of either byte order.
-/

namespace Depot.Hash

/-- the byte at a place, 0 past the end -/
def byteAt (b : ByteArray) (i : Nat) : UInt8 :=
  if h : i < b.size then b[i] else 0

/-- the number that `count` bytes from a place spell, least significant first -/
def littleAt (b : ByteArray) (i : Nat) : Nat → UInt64
  | 0 => 0
  | count + 1 => (byteAt b i).toUInt64 ||| (littleAt b (i + 1) count <<< 8)

/-- the number that `count` bytes from a place spell after those read, most significant first -/
def bigAt (b : ByteArray) (i : Nat) (read : UInt64) : Nat → UInt64
  | 0 => read
  | count + 1 => bigAt b (i + 1) ((read <<< 8) ||| (byteAt b i).toUInt64) count

/-- the 32-bit words of a block, least significant byte first -/
def littleWords32 (count : Nat) (b : ByteArray) : Array UInt32 :=
  ((List.range count).map fun i => (littleAt b (4 * i) 4).toUInt32).toArray

/-- the 32-bit words of a block, most significant byte first -/
def bigWords32 (count : Nat) (b : ByteArray) : Array UInt32 :=
  ((List.range count).map fun i => (bigAt b (4 * i) 0 4).toUInt32).toArray

/-- the 64-bit words of a block, least significant byte first -/
def littleWords64 (count : Nat) (b : ByteArray) : Array UInt64 :=
  ((List.range count).map fun i => littleAt b (8 * i) 8).toArray

/-- the 64-bit words of a block, most significant byte first -/
def bigWords64 (count : Nat) (b : ByteArray) : Array UInt64 :=
  ((List.range count).map fun i => bigAt b (8 * i) 0 8).toArray

/-- the last `count` bytes of a number, least significant first -/
def littleBytes : Nat → Nat → List UInt8
  | 0, _ => []
  | count + 1, n => n.toUInt8 :: littleBytes count (n / 256)

/-- the last `count` bytes of a number, most significant first -/
def bigBytes (count n : Nat) : List UInt8 :=
  (littleBytes count n).reverse

def ofBytes (bytes : List UInt8) : ByteArray :=
  ⟨bytes.toArray⟩

/-- a 32-bit word turned to the left, for a distance from 1 to 31 -/
def turnLeft32 (x n : UInt32) : UInt32 :=
  (x <<< n) ||| (x >>> (32 - n))

/-- a 32-bit word turned to the right, for a distance from 1 to 31 -/
def turnRight32 (x n : UInt32) : UInt32 :=
  (x >>> n) ||| (x <<< (32 - n))

def turnLeft64 (x n : UInt64) : UInt64 :=
  if n = 0 then x else (x <<< n) ||| (x >>> (64 - n))

/-- a 64-bit word turned to the right, for a distance from 1 to 63 -/
def turnRight64 (x n : UInt64) : UInt64 :=
  (x >>> n) ||| (x <<< (64 - n))

/-- the word at a place, 0 past the end -/
def word32 (w : Array UInt32) (i : Nat) : UInt32 :=
  w.getD i 0

/-- the word at a place, 0 past the end -/
def word64 (w : Array UInt64) (i : Nat) : UInt64 :=
  w.getD i 0

def addWords32 (a b : Array UInt32) : Array UInt32 :=
  a.zipWith (· + ·) b

def addWords64 (a b : Array UInt64) : Array UInt64 :=
  a.zipWith (· + ·) b

/-- the bytes that fill the last blocks of a message: one bit, zeros, and the length in bits in `width` bytes -/
def padding (blockSize width : Nat) (length : List UInt8) (pending : Nat) : List UInt8 :=
  0x80 :: List.replicate ((2 * blockSize - 1 - width - pending) % blockSize) 0 ++ length

end Depot.Hash
