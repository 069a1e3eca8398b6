/-
Rounded quotients that are exact enough.

Rounding a quotient to a floating point number goes past no whole number of few bits, and the quotient of a numerator of
at most 53 bits is too far above a whole number to be rounded down to it. So `ceil?` is then the least whole number that
is not below the exact quotient (`ceil?_eq`). The arithmetic is that of units: no fraction occurs in it.
-/
import Mathlib.Tactic
import Mathlib.Algebra.Order.Floor.Div
import Depot.Number.Quotient

namespace Depot.Number

variable {a b m : Nat}

/-! ## Rounding -/

/-- a quotient is rounded past no whole number -/
theorem roundHalfEven_le (hb : 0 < b) (h : a ≤ m * b) : roundHalfEven a b ≤ m := by
  have parts := Nat.div_add_mod a b
  have below : a / b ≤ m := Nat.div_le_of_le_mul (by rwa [Nat.mul_comm])
  unfold roundHalfEven
  dsimp only
  rcases Nat.lt_or_eq_of_le below with less | same
  · split
    · exact less
    · exact below
  · -- a quotient that is the whole number itself leaves nothing to round
    have whole : a % b = 0 := by
      rw [same, Nat.mul_comm] at parts
      omega
    rw [if_neg (by omega)]
    exact below

/-- a quotient more than a half above a whole number is rounded to a greater one -/
theorem lt_roundHalfEven (hb : 0 < b) (h : m * b < a) (half : b < 2 * (a - m * b)) : m < roundHalfEven a b := by
  have parts := Nat.div_add_mod a b
  have above : m ≤ a / b := (Nat.le_div_iff_mul_le hb).2 h.le
  unfold roundHalfEven
  dsimp only
  rcases Nat.lt_or_eq_of_le above with more | same
  · split
    · exact Nat.lt_succ_of_lt more
    · exact more
  · have far : 2 * (a % b) > b := by
      rw [← same, Nat.mul_comm] at parts
      omega
    rw [if_pos (.inl far), ← same]
    exact Nat.lt_succ_self m

/-! ## Units -/

/-- a power with an exponent that is known, but is not evaluated -/
theorem pow_exponent (n k : Nat) : ∃ e, e = k ∧ Nat.pow n k = n ^ e :=
  ⟨k, rfl, rfl⟩

theorem unit_eq : ∃ e, e = 1074 ∧ unit = 2 ^ e := by
  unfold unit
  exact pow_exponent 2 1074

theorem unit_pos : 0 < unit := by
  obtain ⟨e, -, power⟩ := unit_eq
  rw [power]
  positivity

theorem lt_limit (few : a < 2 ^ 53) : a * unit < limit := by
  obtain ⟨e, exponent, power⟩ := pow_exponent 2 1024
  unfold limit
  rw [power]
  have fewer : a < 2 ^ e := few.trans_le (Nat.pow_le_pow_right (by decide) (by omega))
  exact Nat.mul_lt_mul_of_pos_right fewer unit_pos

/-- the least whole number that is not below so many units -/
theorem ceil_units {units n : Nat} (low : n * unit < units) (high : units ≤ (n + 1) * unit) :
    (units + (unit - 1)) / unit = n + 1 := by
  have pos := unit_pos
  rw [Nat.add_mul] at high
  apply Nat.div_eq_of_lt_le
  · rw [Nat.add_mul]
    omega
  · rw [Nat.add_mul, Nat.add_mul]
    omega

/-- **The step of the numbers near a quotient** divides the unit, into more parts than half the denominator has ones. -/
theorem step_spec (pos : 0 < a) (few : a < 2 ^ 53) (hb : 0 < b) (short : b < 2 ^ 63) :
    ∃ parts, unit = 2 ^ excess (a * unit / b) * parts ∧ b < 2 * parts := by
  obtain ⟨e, exponent, power⟩ := unit_eq
  obtain ⟨q, hq⟩ : ∃ q, q = a * unit / b := ⟨_, rfl⟩
  have large : 2 ^ (e - 63) ≤ q := by
    rw [hq, Nat.le_div_iff_mul_le hb]
    calc 2 ^ (e - 63) * b ≤ 2 ^ (e - 63) * 2 ^ 63 := Nat.mul_le_mul_left _ short.le
      _ = 1 * unit := by rw [← pow_add, power, Nat.one_mul, Nat.sub_add_cancel (by omega)]
      _ ≤ a * unit := Nat.mul_le_mul_right _ pos
  have nonzero : q ≠ 0 := by
    have : 0 < 2 ^ (e - 63) := by positivity
    omega
  have small : q < 2 ^ (53 + e) := by
    calc q ≤ a * unit := hq ▸ Nat.div_le_self _ _
      _ < 2 ^ 53 * unit := Nat.mul_lt_mul_of_pos_right few unit_pos
      _ = 2 ^ (53 + e) := by rw [power, ← pow_add]
  have least : e - 63 ≤ q.log2 := (Nat.le_log2 nonzero).2 large
  have most : q.log2 < 53 + e := (Nat.log2_lt nonzero).2 small
  have bits : excess q + 52 = q.log2 := by
    unfold excess precision
    rw [if_neg nonzero]
    omega
  have split : unit = 2 ^ excess q * 2 ^ (e - excess q) := by
    have same : excess q + (e - excess q) = e := by omega
    rw [← pow_add, same, power]
  refine ⟨2 ^ (e - excess q), hq ▸ split, ?_⟩
  -- the quotient has 53 significant bits or more, which the numerator times the parts has not
  have significant : 2 ^ excess q * (b * 2 ^ 52) ≤ 2 ^ excess q * (a * 2 ^ (e - excess q)) := by
    calc 2 ^ excess q * (b * 2 ^ 52) = b * 2 ^ q.log2 := by rw [← bits, pow_add]; ring
      _ ≤ b * q := Nat.mul_le_mul_left _ (Nat.log2_self_le nonzero)
      _ ≤ a * unit := hq ▸ Nat.mul_div_le _ _
      _ = 2 ^ excess q * (a * 2 ^ (e - excess q)) := by rw [split]; ring
  have covered := Nat.le_of_mul_le_mul_left significant (by positivity)
  have parts : 0 < 2 ^ (e - excess q) := by positivity
  have less : a * 2 ^ (e - excess q) < 2 ^ 53 * 2 ^ (e - excess q) := Nat.mul_lt_mul_of_pos_right few parts
  omega

/-- **Rounding a quotient keeps it between the whole numbers around it.** -/
theorem nearest?_between {n : Nat} (few : a < 2 ^ 53) (hb : 0 < b) (short : b < 2 ^ 63) (low : n * b < a)
    (high : a ≤ (n + 1) * b) : ∃ units, nearest? a b = some units ∧ n * unit < units ∧ units ≤ (n + 1) * unit := by
  obtain ⟨parts, split, wide⟩ := step_spec (Nat.zero_lt_of_lt low) few hb short
  obtain ⟨step, hstep⟩ : ∃ step, step = 2 ^ excess (a * unit / b) := ⟨_, rfl⟩
  have step_pos : 0 < step := by
    rw [hstep]
    positivity
  rw [← hstep] at split
  have upper : roundHalfEven (a * unit) (b * step) ≤ (n + 1) * parts := by
    apply roundHalfEven_le (Nat.mul_pos hb step_pos)
    calc a * unit ≤ (n + 1) * b * unit := Nat.mul_le_mul_right _ high
      _ = (n + 1) * parts * (b * step) := by rw [split]; ring
  have lower : n * parts < roundHalfEven (a * unit) (b * step) := by
    have scaled : a * unit = parts * step * a := by rw [split]; ring
    have floor : n * parts * (b * step) = parts * step * (n * b) := by ring
    have gap : a * unit - n * parts * (b * step) = parts * step * (a - n * b) := by
      rw [scaled, floor, ← Nat.mul_sub]
    have one : parts * step ≤ parts * step * (a - n * b) := Nat.le_mul_of_pos_right _ (by omega)
    have half : b * step < 2 * (parts * step) := by
      rw [← Nat.mul_assoc]
      exact Nat.mul_lt_mul_of_pos_right wide step_pos
    apply lt_roundHalfEven (Nat.mul_pos hb step_pos)
    · rw [scaled, floor]
      exact Nat.mul_lt_mul_of_pos_left low (Nat.mul_pos (by omega) step_pos)
    · rw [gap]
      omega
  have least : n * unit < roundHalfEven (a * unit) (b * step) * step := by
    calc n * unit = n * parts * step := by rw [split]; ring
      _ < _ := Nat.mul_lt_mul_of_pos_right lower step_pos
  have most : roundHalfEven (a * unit) (b * step) * step ≤ (n + 1) * unit := by
    calc _ ≤ (n + 1) * parts * step := Nat.mul_le_mul_right _ upper
      _ = (n + 1) * unit := by rw [split]; ring
  have fits : roundHalfEven (a * unit) (b * step) * step < limit := by
    have bound : n + 1 ≤ a := Nat.le_trans (Nat.succ_le_succ (Nat.le_mul_of_pos_right n hb)) low
    calc _ ≤ (n + 1) * unit := most
      _ ≤ a * unit := Nat.mul_le_mul_right _ bound
      _ < limit := lt_limit few
  refine ⟨_, ?_, least, most⟩
  rw [hstep] at fits ⊢
  unfold nearest?
  exact if_pos fits

/-! ## Whole numbers -/

theorem ceil?_zero (hb : 0 < b) : ceil? 0 b = some 0 := by
  have zero : nearest? 0 b = some 0 := by
    have step_pos : 0 < Nat.pow 2 (excess 0) := Nat.pow_pos (by decide)
    have round : roundHalfEven 0 (b * Nat.pow 2 (excess 0)) = 0 :=
      Nat.le_zero.1 (roundHalfEven_le (Nat.mul_pos hb step_pos) (by omega))
    have fits : 0 * unit < limit := lt_limit (by positivity)
    unfold nearest?
    dsimp only
    rw [Nat.zero_mul, Nat.zero_div, round, Nat.zero_mul]
    rw [Nat.zero_mul] at fits
    exact if_pos fits
  have rest : (0 + (unit - 1)) / unit = 0 := Nat.div_eq_of_lt (by have := unit_pos; omega)
  unfold ceil?
  rw [Int.natAbs_zero, zero, Option.map_some, if_pos (Int.le_refl 0), rest]
  rfl

/-- **The rounded quotient of a number of at most 53 bits and one of at most 63 is as large as the exact one, up to the
next whole number.** -/
theorem ceil?_eq (few : a < 2 ^ 53) (hb : 0 < b) (short : b < 2 ^ 63) : ceil? a b = some ((a ⌈/⌉ b : Nat) : Int) := by
  cases a with
  | zero => rw [Nat.cast_zero, ceil?_zero hb, zero_ceilDiv, Nat.cast_zero]
  | succ a =>
    obtain ⟨n, hn⟩ : ∃ n, n = a / b := ⟨_, rfl⟩
    have exact_ : (a + 1) ⌈/⌉ b = n + 1 := by
      rw [Nat.ceilDiv_eq_add_pred_div, hn, show a + 1 + b - 1 = a + b by omega, Nat.add_div_right _ hb]
    have low : n * b < a + 1 := by
      rw [hn]
      exact Nat.lt_succ_of_le (Nat.div_mul_le_self a b)
    have high : a + 1 ≤ (n + 1) * b := by
      rw [hn, Nat.mul_comm]
      exact Nat.lt_mul_div_succ a hb
    obtain ⟨units, rounded, least, most⟩ := nearest?_between few hb short low high
    have positive : (0 : Int) ≤ ((a + 1 : Nat) : Int) := Int.natCast_nonneg _
    unfold ceil?
    rw [Int.natAbs_natCast, rounded, Option.map_some, if_pos positive, ceil_units least most, exact_]

end Depot.Number
