/-
Texts in quotes, and lists of them in brackets.

A text stands in single quotes, or in double quotes if it holds a single one and no double one. The quote in use and
the backslash are written after a backslash, line ends and tabs as `\n`, `\r` and `\t`, and every other character that
cannot be shown by its hexadecimal code point: `\x` and two digits, `\u` and four, or `\U` and eight.
-/
import Depot.Text.Printable

namespace Depot.Text.Quoted

/-- the quote that texts are written in -/
def single : Char := Char.ofNat 0x27

/-- the quote for texts that hold the other one -/
def double : Char := Char.ofNat 0x22

/-- what stands before a character that has another meaning -/
def backslash : Char := Char.ofNat 0x5C

/-- the quote that a text is written in -/
def quoteOf (s : String) : Char :=
  if s.toList.contains single && !s.toList.contains double then double else single

/-- the last `width` hexadecimal digits of a number, in lower case -/
def hex : Nat → Nat → List Char
  | 0, _ => []
  | width + 1, n =>
    let d := n % 16
    hex width (n / 16) ++ [Char.ofNat (if d < 10 then 0x30 + d else 0x57 + d)]

/-- one character inside the quotes -/
def escape (quote c : Char) : List Char :=
  if c = quote ∨ c = backslash then [backslash, c]
  else if c = '\n' then [backslash, 'n']
  else if c = '\r' then [backslash, 'r']
  else if c = '\t' then [backslash, 't']
  else if Printable.isPrintable c then [c]
  else if c.toNat < 0x100 then backslash :: 'x' :: hex 2 c.toNat
  else if c.toNat < 0x10000 then backslash :: 'u' :: hex 4 c.toNat
  else backslash :: 'U' :: hex 8 c.toNat

def quote (s : String) : String :=
  let q := quoteOf s
  String.ofList (q :: s.toList.flatMap (escape q) ++ [q])

def list (items : List String) : String :=
  "[" ++ ", ".intercalate (items.map quote) ++ "]"

end Depot.Text.Quoted
