/-
Whole numbers as text.

Written: decimal digits with no leading zero, or with zeros up to a width (`padded`). Read (`read?`): blanks at the
ends, one sign, and digits of a radix with single low lines between them. The digits up to nine are those of any script,
the ones from ten on are Latin letters. Hexadecimal digits may stand after the mark `0x`. A row of more decimal digits
than `Radix.maxDigits` is refused before it is known what follows it.
-/
import Depot.Text.Blank
import Depot.Text.Digit

namespace Depot.Text.Numeral

def ofNat (n : Nat) : String :=
  String.ofList (Nat.toDigits 10 n)

def ofInt : Int → String
  | .ofNat n => ofNat n
  | .negSucc n => "-" ++ ofNat (n + 1)

/-- the last `width` decimal digits of a number, most significant first -/
def lastDigits : Nat → Nat → List Char
  | 0, _ => []
  | width + 1, n => lastDigits width (n / 10) ++ [Char.ofNat (0x30 + n % 10)]

def padded (width n : Nat) : String :=
  if n < Nat.pow 10 width then String.ofList (lastDigits width n) else ofNat n

/-- why a text is no number -/
inductive Refusal where
  | malformed
  | tooLong (digits : Nat)
  deriving DecidableEq, Repr

/-- how the digits of a number are read -/
structure Radix where
  base : Nat
  /-- the letters that make a mark with the zero before them, which may stand before the digits -/
  marks : List Char
  /-- the most digits that a number may have, if there is a limit -/
  maxDigits : Option Nat
  deriving DecidableEq, Repr

namespace Radix

def decimal : Radix := ⟨10, [], some 4300⟩

def hexadecimal : Radix := ⟨16, ['x', 'X'], none⟩

def digit? (r : Radix) (c : Char) : Option Nat :=
  let letter (first : Char) : Nat := c.toNat - first.toNat + 10
  let value :=
    if 'a' ≤ c && c ≤ 'z' then some (letter 'a')
    else if 'A' ≤ c && c ≤ 'Z' then some (letter 'A')
    else Digit.value? c
  value.filter (· < r.base)

/-- the values of a row of digits with single low lines between them -/
def digits? (r : Radix) : List Char → Option (List Nat)
  | [] => none
  | [c] => (r.digit? c).map ([·])
  | c :: '_' :: rest => do
    let d ← r.digit? c
    let ds ← r.digits? rest
    return d :: ds
  | c :: rest => do
    let d ← r.digit? c
    let ds ← r.digits? rest
    return d :: ds

def value (r : Radix) (ds : List Nat) : Nat :=
  ds.foldl (fun n d => n * r.base + d) 0

/-- what is left of a text after a mark at its start, and after one low line if a mark is there -/
def unmarked (r : Radix) : List Char → List Char
  | zero :: mark :: rest =>
    if Digit.value? zero = some 0 && r.marks.contains mark then
      match rest with
      | '_' :: rest => rest
      | rest => rest
    else zero :: mark :: rest
  | cs => cs

/-- the number of a row of digits at the start of a text that ends in blanks -/
def magnitude (r : Radix) (cs : List Char) : Except Refusal Nat :=
  let isPart (c : Char) : Bool := c == '_' || (r.digit? c).isSome
  match r.digits? (cs.takeWhile isPart) with
  | none => .error .malformed
  | some ds =>
    if r.maxDigits.any (· < ds.length) then .error (.tooLong ds.length)
    else if (cs.dropWhile isPart).all Blank.isBlank then .ok (r.value ds)
    else .error .malformed

end Radix

/-- the number that a text stands for -/
def read? (r : Radix) (s : String) : Except Refusal Int :=
  let size (cs : List Char) : Except Refusal Int := (r.magnitude (r.unmarked cs)).map fun n => (n : Int)
  match s.toList.dropWhile Blank.isBlank with
  | '-' :: cs => (size cs).map fun n => -n
  | '+' :: cs => size cs
  | cs => size cs

end Depot.Text.Numeral
