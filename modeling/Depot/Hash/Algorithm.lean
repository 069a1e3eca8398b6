/-
The digest algorithms by their names.

Two of them, SHAKE-128 and SHAKE-256, have digests of any length and so none of their own.
-/
import Depot.Hash.Blake2
import Depot.Hash.Md5
import Depot.Hash.Sha1
import Depot.Hash.Sha3

namespace Depot.Hash

inductive Algorithm where
  | md5
  | sha1
  | sha224
  | sha256
  | sha384
  | sha512
  | sha3224
  | sha3256
  | sha3384
  | sha3512
  | blake2b
  | blake2s
  | shake128
  | shake256
  deriving DecidableEq, Repr

namespace Algorithm

/-- The names that every installation knows; the older algorithms have one in capitals too. What
else an installation's cryptographic library may offer, such as "sha512_256" or "SHAKE128", is left
out: such a name is unknown here. -/
def names : List (String × Algorithm) :=
  [("md5", .md5), ("sha1", .sha1), ("sha224", .sha224), ("sha256", .sha256), ("sha384", .sha384), ("sha512", .sha512),
    ("MD5", .md5), ("SHA1", .sha1), ("SHA224", .sha224), ("SHA256", .sha256), ("SHA384", .sha384), ("SHA512", .sha512),
    ("sha3_224", .sha3224), ("sha3_256", .sha3256), ("sha3_384", .sha3384), ("sha3_512", .sha3512),
    ("blake2b", .blake2b), ("blake2s", .blake2s), ("shake_128", .shake128), ("shake_256", .shake256)]

def ofName? (name : String) : Option Algorithm :=
  names.lookup name

/-- the hash function, for an algorithm with digests of one length -/
def function? : Algorithm → Option BlockHash
  | .md5 => some Md5.function
  | .sha1 => some Sha1.function
  | .sha224 => some Sha2.sha224
  | .sha256 => some Sha2.sha256
  | .sha384 => some Sha2.sha384
  | .sha512 => some Sha2.sha512
  | .sha3224 => some (Sha3.function 28 (by decide))
  | .sha3256 => some (Sha3.function 32 (by decide))
  | .sha3384 => some (Sha3.function 48 (by decide))
  | .sha3512 => some (Sha3.function 64 (by decide))
  | .blake2b => some Blake2.blake2b
  | .blake2s => some Blake2.blake2s
  | .shake128 | .shake256 => none

end Algorithm

/-- bytes in hexadecimal, two lower-case digits each -/
def hexText (bytes : ByteArray) : String :=
  let digit (n : Nat) : Char := Char.ofNat (if n < 10 then 0x30 + n else 0x57 + n)
  String.ofList (bytes.toList.flatMap fun b => [digit (b.toNat / 16), digit (b.toNat % 16)])

end Depot.Hash
