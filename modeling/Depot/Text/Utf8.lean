/-
UTF-8 as lists of bytes.

`encode` writes every character of a text. `decodeLossy` reads any bytes at all: each longest beginning of a character
that cannot be completed, and each byte that begins none, becomes one replacement character. Reading is a machine that
takes one byte at a time (`step`), so that it can be run over bytes that arrive between other things.
-/

namespace Depot.Text.Utf8

def encode (s : String) : List UInt8 :=
  s.toList.flatMap String.utf8EncodeChar

/-- what stands for bytes that are no character -/
def replacement : Char := '\uFFFD'

/-- a character begun: the bits read so far, the bytes still owed (at least one), and the range of the next one -/
structure Pending where
  bits : Nat
  owed : Nat
  low : Nat
  high : Nat
  deriving DecidableEq, Repr

/-- the character that a first byte above ASCII begins, if it begins one -/
def lead? (b : Nat) : Option Pending :=
  if 0xC2 ≤ b ∧ b ≤ 0xDF then some ⟨b - 0xC0, 1, 0x80, 0xBF⟩
  else if b = 0xE0 then some ⟨0, 2, 0xA0, 0xBF⟩
  else if b = 0xED then some ⟨0xD, 2, 0x80, 0x9F⟩
  else if 0xE1 ≤ b ∧ b ≤ 0xEF then some ⟨b - 0xE0, 2, 0x80, 0xBF⟩
  else if b = 0xF0 then some ⟨0, 3, 0x90, 0xBF⟩
  else if 0xF1 ≤ b ∧ b ≤ 0xF3 then some ⟨b - 0xF0, 3, 0x80, 0xBF⟩
  else if b = 0xF4 then some ⟨4, 3, 0x80, 0x8F⟩
  else none

/-- a byte where a character may begin: the characters it settles, and the character it begins -/
def begin (b : Nat) : List Char × Option Pending :=
  if b < 0x80 then ([Char.ofNat b], none)
  else match lead? b with
    | some p => ([], some p)
    | none => ([replacement], none)

/-- a byte inside a character: it completes or continues it, or the character is given up and the byte begins anew -/
def resume (p : Pending) (b : Nat) : List Char × Option Pending :=
  if p.low ≤ b ∧ b ≤ p.high then
    if p.owed ≤ 1 then ([Char.ofNat (p.bits * 64 + (b - 0x80))], none)
    else ([], some ⟨p.bits * 64 + (b - 0x80), p.owed - 1, 0x80, 0xBF⟩)
  else (replacement :: (begin b).1, (begin b).2)

def step : Option Pending → UInt8 → List Char × Option Pending
  | none, b => begin b.toNat
  | some p, b => resume p b.toNat

/-- what a character left unfinished amounts to -/
def flush : Option Pending → List Char
  | none => []
  | some _ => [replacement]

/-- all bytes, from a character begun or none -/
def decodeFrom : Option Pending → List UInt8 → List Char
  | p, [] => flush p
  | p, b :: rest => (step p b).1 ++ decodeFrom (step p b).2 rest

/-- the text of any bytes -/
def decodeLossy (bytes : List UInt8) : String :=
  String.ofList (decodeFrom none bytes)

end Depot.Text.Utf8
