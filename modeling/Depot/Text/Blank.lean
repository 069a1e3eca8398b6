/-
Blank characters, and texts without the blanks at their ends.

`isBlank` holds of the characters with the property White_Space, `isGap` also of the four information separators.
-/

namespace Depot.Text.Blank

/-- the characters with the property White_Space -/
def isBlank (c : Char) : Bool :=
  let n := c.toNat
  (0x09 ≤ n && n ≤ 0x0D) || n == 0x20 || n == 0x85 || n == 0xA0 || n == 0x1680
    || (0x2000 ≤ n && n ≤ 0x200A) || n == 0x2028 || n == 0x2029 || n == 0x202F || n == 0x205F || n == 0x3000

/-- blanks and information separators -/
def isGap (c : Char) : Bool :=
  isBlank c || (0x1C ≤ c.toNat && c.toNat ≤ 0x1F)

/-- what is left of a text without the leading and trailing characters of a class -/
def trim (blank : Char → Bool) (cs : List Char) : List Char :=
  ((cs.dropWhile blank).reverse.dropWhile blank).reverse

/-- a text without blanks and separators at its ends -/
def strip (s : String) : String :=
  String.ofList (trim isGap s.toList)

end Depot.Text.Blank
