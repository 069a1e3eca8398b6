/-
Quotients as the nearest floating point number of 64 bits.

A floating point number that is not negative is a whole number of units of 2⁻¹⁰⁷⁴, has at most 53 significant bits,
and is less than 2¹⁰²⁴. `nearest?` gives the one nearest to a quotient, of two the one whose last bit is 0; a quotient
that rounds to 2¹⁰²⁴ or more has none. `ceil?` is the least whole number that is not below the rounded quotient.
Rounding comes first, so it can differ from that of the exact quotient where the numerator has more than 53 bits.
-/

namespace Depot.Number

/-- the nearest whole number to a quotient, of two the even one -/
def roundHalfEven (a b : Nat) : Nat :=
  let q := a / b
  let twice := 2 * (a % b)
  if twice > b ∨ (twice = b ∧ q % 2 = 1) then q + 1 else q

/-- the units in 1 -/
def unit : Nat := Nat.pow 2 1074

/-- the units in the least number that is too large -/
def limit : Nat := Nat.pow 2 1024 * unit

/-- the significant bits of a number -/
def precision : Nat := 53

/-- the bits of a whole number of units that are not significant -/
def excess (units : Nat) : Nat :=
  if units = 0 then 0 else Nat.log2 units + 1 - precision

/-- the units of the number nearest to a quotient; none if it is too large -/
def nearest? (a b : Nat) : Option Nat :=
  let scaled := a * unit
  let step := Nat.pow 2 (excess (scaled / b))
  let units := roundHalfEven scaled (b * step) * step
  if units < limit then some units else none

/-- the least whole number that is not below the rounded quotient -/
@[irreducible] def ceil? (a : Int) (b : Nat) : Option Int :=
  (nearest? a.natAbs b).map fun units =>
    if 0 ≤ a then ((units + (unit - 1)) / unit : Nat) else -((units / unit : Nat) : Int)

end Depot.Number
