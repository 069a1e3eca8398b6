/-
Days and dates, and what a clock shows of a moment.

`toDay_ofDay`: the date of a day is a date, and that of this day. `of?_date`: a timestamp is made of the date, the time
of day and the distance from UTC that it shows.
-/
import Mathlib.Tactic
import Depot.Time.Timestamp

namespace Depot.Time

namespace Date

/-! ## Years -/

/-- the place of a year in its cycles of 400, 100 and 4 years -/
theorem daysBeforeYear_cycles {a b c d : Nat} (hb : b ≤ 3) (hc : c ≤ 24) (hd : d ≤ 3) :
    daysBeforeYear (a * 400 + b * 100 + c * 4 + d + 1) = a * 146097 + b * 36524 + c * 1461 + d * 365 := by
  rw [daysBeforeYear]
  omega

theorem isLeap_cycles {a b c d : Nat} (hb : b ≤ 3) (hc : c ≤ 24) (hd : d ≤ 3) :
    isLeap (a * 400 + b * 100 + c * 4 + d + 1) = (d == 3 && (c != 24 || b == 3)) := by
  rw [isLeap, Bool.eq_iff_iff]
  simp only [Bool.and_eq_true, Bool.or_eq_true, beq_iff_eq, bne_iff_ne]
  omega

/-- a day is so many days after the start of its year, and within it -/
theorem yearOfDay_spec (n : Nat) :
    1 ≤ (yearOfDay n).1 ∧ daysBeforeYear (yearOfDay n).1 + (yearOfDay n).2 = n ∧
      (yearOfDay n).2 < 365 + (isLeap (yearOfDay n).1).toNat := by
  obtain ⟨b, hb⟩ : ∃ b, b = min (n % 146097 / 36524) 3 := ⟨_, rfl⟩
  obtain ⟨s, hs⟩ : ∃ s, s = n % 146097 - b * 36524 := ⟨_, rfl⟩
  obtain ⟨d, hd⟩ : ∃ d, d = min (s % 1461 / 365) 3 := ⟨_, rfl⟩
  have shape : yearOfDay n = (n / 146097 * 400 + b * 100 + s / 1461 * 4 + d + 1, s % 1461 - d * 365) := by
    rw [hd, hs, hb]
    rfl
  have hb3 : b ≤ 3 := by omega
  have hc : s / 1461 ≤ 24 := by omega
  have hd3 : d ≤ 3 := by omega
  rw [shape]
  refine ⟨by omega, ?_, ?_⟩
  · rw [daysBeforeYear_cycles hb3 hc hd3]
    dsimp only
    omega
  · rw [isLeap_cycles hb3 hc hd3]
    dsimp only
    cases leap : d == 3 && (s / 1461 != 24 || b == 3) with
    | true => rw [Bool.toNat_true]; omega
    | false =>
      rw [Bool.toNat_false]
      simp only [Bool.and_eq_false_iff, Bool.or_eq_false_iff, beq_eq_false_iff_ne, bne_eq_false_iff_eq] at leap
      omega

/-! ## Months -/

/-- a day of a year is so many days after the start of its month, and within it -/
theorem monthOfDay_spec : ∀ leap : Bool, ∀ n < 365 + leap.toNat,
    1 ≤ (monthOfDay 1 n (monthLengths leap)).1 ∧ (monthOfDay 1 n (monthLengths leap)).1 ≤ 12 ∧
      1 ≤ (monthOfDay 1 n (monthLengths leap)).2 ∧
      (monthOfDay 1 n (monthLengths leap)).2 ≤
        ((monthLengths leap)[(monthOfDay 1 n (monthLengths leap)).1 - 1]?).getD 0 ∧
      ((monthLengths leap).take ((monthOfDay 1 n (monthLengths leap)).1 - 1)).foldl Nat.add 0 +
        ((monthOfDay 1 n (monthLengths leap)).2 - 1) = n := by
  decide +kernel

theorem monthLengths_le : ∀ leap : Bool, ∀ m < 12, ((monthLengths leap)[m]?).getD 0 ≤ 31 := by decide

/-! ## Dates -/

/-- **The date of a day is that of this day.** -/
theorem toDay_ofDay (n : Nat) : (ofDay n).toDay = n := by
  obtain ⟨-, hyear, hrest⟩ := yearOfDay_spec n
  obtain ⟨-, -, -, -, hmonth⟩ := monthOfDay_spec _ _ hrest
  rw [toDay, ofDay]
  dsimp only
  rw [daysBeforeMonth]
  omega

theorem year_le {n : Nat} (h : n < 3652059) : (yearOfDay n).1 ≤ 9999 := by
  obtain ⟨-, hyear, -⟩ := yearOfDay_spec n
  rw [daysBeforeYear] at hyear
  omega

/-- the date of a day before the year 10000 exists, and its parts have two digits but for the year, which has four -/
theorem ofDay_bounds {n : Nat} (h : n < 3652059) :
    (ofDay n).isValid = true ∧ (ofDay n).year ≤ 9999 ∧ (ofDay n).month ≤ 12 ∧ (ofDay n).day ≤ 31 := by
  obtain ⟨hpos, -, hrest⟩ := yearOfDay_spec n
  obtain ⟨hm1, hm12, hd1, hd, -⟩ := monthOfDay_spec _ _ hrest
  have hyear := year_le h
  have short := monthLengths_le (isLeap (yearOfDay n).1)
    ((monthOfDay 1 (yearOfDay n).2 (monthLengths (isLeap (yearOfDay n).1))).1 - 1) (by omega)
  rw [isValid, ofDay]
  dsimp only
  rw [daysInMonth, if_neg (by omega)]
  simp only [Bool.and_eq_true, decide_eq_true_eq]
  omega

end Date

namespace Timestamp

theorem date_day_lt (t : Timestamp) : t.wall / day < 3652059 := by
  have := t.wall_lt
  rw [limit] at this
  exact Nat.div_lt_of_lt_mul (by rwa [Nat.mul_comm])

/-- **A timestamp is made of what it shows.** -/
theorem of?_date (t : Timestamp) : of? t.date t.timeOfDay t.offset = some t := by
  have whole : t.date.toDay * day + t.timeOfDay = t.wall := by
    rw [date, Date.toDay_ofDay, timeOfDay, Nat.mul_comm]
    exact Nat.div_add_mod t.wall day
  have valid : t.date.isValid = true := (Date.ofDay_bounds t.date_day_lt).1
  rw [of?]
  simp only [whole]
  rw [dif_pos ⟨valid, t.wall_lt, t.offset_lt⟩]

end Timestamp

end Depot.Time
