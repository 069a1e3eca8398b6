/-
Percent encoding of text, as in the path of a resource name.

Written form: the UTF-8 bytes of the text, where ASCII letters, digits and `_.-~/` stand for themselves and every
other byte is `%` and two upper-case hexadecimal digits. Reading accepts more: digits of either case, a `%` that
begins no escape stands for itself, and characters that are not ASCII stand for themselves. Bytes between two such
characters are read as UTF-8 with replacement.
-/
import Depot.Text.Utf8

namespace Depot.Text.Percent

/-- the bytes that are written as themselves -/
def isPlain (b : UInt8) : Bool :=
  (0x41 ≤ b && b ≤ 0x5A) || (0x61 ≤ b && b ≤ 0x7A) || (0x30 ≤ b && b ≤ 0x39)
    || b == 0x5F || b == 0x2E || b == 0x2D || b == 0x7E || b == 0x2F

/-- an upper-case hexadecimal digit, for `n < 16` -/
def hexDigit (n : Nat) : Char :=
  if n < 10 then Char.ofNat (0x30 + n) else Char.ofNat (0x37 + n)

/-- the value of a hexadecimal digit of either case -/
def hexValue? (c : Char) : Option Nat :=
  let n := c.toNat
  if 0x30 ≤ n ∧ n ≤ 0x39 then some (n - 0x30)
  else if 0x41 ≤ n ∧ n ≤ 0x46 then some (n - 0x37)
  else if 0x61 ≤ n ∧ n ≤ 0x66 then some (n - 0x57)
  else none

def encodeByte (b : UInt8) : List Char :=
  if isPlain b then [Char.ofNat b.toNat]
  else ['%', hexDigit (b.toNat / 16), hexDigit (b.toNat % 16)]

def encode (s : String) : String :=
  String.ofList ((Utf8.encode s).flatMap encodeByte)

/-- what a written form is made of: bytes, given plainly or by escapes, and characters that are not ASCII -/
inductive Piece where
  | byte (b : UInt8)
  | char (c : Char)
  deriving DecidableEq, Repr

/-- one character outside an escape -/
def Piece.ofChar (c : Char) : Piece :=
  if c.toNat < 0x80 then .byte c.toNat.toUInt8 else .char c

/-- the byte of an escape's two digits -/
def escape? (h l : Char) : Option UInt8 := do
  let a ← hexValue? h
  let b ← hexValue? l
  return (a * 16 + b).toUInt8

def pieces : List Char → List Piece
  | [] => []
  | '%' :: h :: l :: rest =>
    match escape? h l with
    | some b => .byte b :: pieces rest
    | none => .byte 0x25 :: pieces (h :: l :: rest)
  | c :: rest => Piece.ofChar c :: pieces rest

/-- the characters of pieces, from a character begun or none -/
def join : Option Utf8.Pending → List Piece → List Char
  | p, [] => Utf8.flush p
  | p, .byte b :: rest => (Utf8.step p b).1 ++ join (Utf8.step p b).2 rest
  | p, .char c :: rest => Utf8.flush p ++ c :: join none rest

def decode (s : String) : String :=
  String.ofList (join none (pieces s.toList))

end Depot.Text.Percent
