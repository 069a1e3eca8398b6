/-
The written form of a timestamp reads back as the timestamp.

Numbers are written with a fixed number of digits (`number?_digits`), and a time of day or a distance from UTC as
fields between colons (`clock?_time`, `clock?_short`). A distance from UTC of less than a second is written but not
read, so `ofIso?_iso` asks for a timestamp without one (`Timestamp.Regular`). No text is read as another
(`regular_of_ofIso?`).
-/
import Mathlib.Data.List.TakeWhile
import Depot.Proofs.Calendar
import Depot.Time.Iso
import Depot.Time.IsoReader

namespace Depot.Time

open Depot.Text

/-! ## Digits -/

/-- the bytes of the last so many decimal digits of a number -/
def digits : Nat → Nat → List Nat
  | 0, _ => []
  | width + 1, n => digits width (n / 10) ++ [0x30 + n % 10]

theorem length_digits (width n : Nat) : (digits width n).length = width := by
  induction width generalizing n with
  | zero => rfl
  | succ width ih => rw [digits, List.length_append, ih, List.length_singleton]

theorem isDigit_of_mem_digits {width n b : Nat} (h : b ∈ digits width n) : 0x30 ≤ b ∧ b ≤ 0x39 := by
  induction width generalizing n with
  | zero => cases h
  | succ width ih =>
    rw [digits, List.mem_append, List.mem_singleton] at h
    rcases h with h | rfl
    · exact ih h
    · omega

/-- the bytes of a text of characters below 128 -/
def bytesOf (cs : List Char) : List Nat := cs.map Char.toNat

theorem digit_toNat : ∀ d < 10, (Char.ofNat (0x30 + d)).toNat = 0x30 + d := by decide

theorem bytesOf_lastDigits (width n : Nat) : bytesOf (Numeral.lastDigits width n) = digits width n := by
  induction width generalizing n with
  | zero => rfl
  | succ width ih =>
    rw [Numeral.lastDigits, digits, ← ih, bytesOf, List.map_append, List.map_singleton,
      digit_toNat _ (Nat.mod_lt _ (by decide))]
    rfl

theorem bytesOf_padded (width : Nat) {n : Nat} (h : n < 10 ^ width) :
    bytesOf (Numeral.padded width n).toList = digits width n := by
  rw [Numeral.padded, if_pos (show n < Nat.pow 10 width from h), String.toList_ofList, bytesOf_lastDigits]

namespace IsoReader

theorem isDigit_iff {b : Nat} : isDigit b = true ↔ 0x30 ≤ b ∧ b ≤ 0x39 := by
  simp [isDigit]

theorem number?_succ (width acc : Nat) (bytes : List Nat) :
    number? (width + 1) acc bytes = (number? width acc bytes).bind fun (n, rest) => number? 1 n rest := by
  induction width generalizing acc bytes with
  | zero => simp [number?]
  | succ width ih =>
    rcases bytes with _ | ⟨b, bytes⟩
    · simp [number?]
    · rw [number?]
      conv_rhs => rw [number?]
      split
      · exact ih _ _
      · rfl

theorem number?_digit (acc : Nat) {d : Nat} (h : d < 10) (rest : List Nat) :
    number? 1 acc ((0x30 + d) :: rest) = some (acc * 10 + d, rest) := by
  rw [number?, if_pos (isDigit_iff.2 (by omega)), number?, Nat.add_sub_cancel_left]

theorem number?_from (width acc n : Nat) (rest : List Nat) :
    number? width acc (digits width n ++ rest) = some (acc * 10 ^ width + n % 10 ^ width, rest) := by
  induction width generalizing n rest with
  | zero => simp [number?, digits, Nat.mod_one]
  | succ width ih =>
    have split : n % 10 ^ (width + 1) = n / 10 % 10 ^ width * 10 + n % 10 := by
      rw [pow_succ, Nat.mul_comm (10 ^ width) 10, Nat.mod_mul]
      ring
    rw [number?_succ, digits, List.append_assoc, List.singleton_append, ih, Option.bind_some]
    dsimp only
    rw [number?_digit _ (Nat.mod_lt _ (by decide)), split]
    congr 2
    ring

/-- **A number of digits reads back.** -/
theorem number?_digits (width : Nat) {n : Nat} (h : n < 10 ^ width) (rest : List Nat) :
    number? width 0 (digits width n ++ rest) = some (n, rest) := by
  rw [number?_from, Nat.zero_mul, Nat.zero_add, Nat.mod_eq_of_lt h]

/-! ## Times of day -/

def fractionBytes (micros : Nat) : List Nat :=
  if micros = 0 then [] else 0x2E :: digits 6 micros

def timeBytes (h m s micros : Nat) : List Nat :=
  digits 2 h ++ 0x3A :: (digits 2 m ++ 0x3A :: (digits 2 s ++ fractionBytes micros))

def shortBytes (h m : Nat) : List Nat :=
  digits 2 h ++ 0x3A :: digits 2 m

variable {h m s micros next : Nat}

theorem digits_two (n : Nat) : digits 2 n = [0x30 + n / 10 % 10, 0x30 + n % 10] := rfl

theorem clock?_field {k : Nat} {colons : Option Bool} (hcolons : colons ≠ some false) (fields : List Nat) {n : Nat}
    (hn : n < 100) {rest : List Nat} (more : rest ≠ []) (next : Nat) :
    clock? (k + 1) colons fields (digits 2 n ++ 0x3A :: rest) next = clock? k (some true) (fields ++ [n]) rest next := by
  obtain ⟨b, rest, rfl⟩ := List.exists_cons_of_ne_nil more
  rw [clock?, number?_digits 2 hn]
  rcases colons with _ | _ | _
  · rfl
  · exact absurd rfl hcolons
  · rfl

theorem clock?_last {k : Nat} {colons : Option Bool} (fields : List Nat) {n : Nat} (hn : n < 100) (next : Nat) :
    clock? (k + 1) colons fields (digits 2 n) next = some ⟨fields ++ [n], 0, next != 0⟩ := by
  have read := number?_digits 2 hn []
  rw [List.append_nil] at read
  rw [clock?, read]
  rfl

theorem fraction?_digits (fields : List Nat) (hmicros : micros < 1000000) (next : Nat) :
    fraction? fields (digits 6 micros) next = some ⟨fields, micros, next != 0⟩ := by
  have read := number?_digits 6 hmicros []
  rw [List.append_nil] at read
  rw [fraction?, length_digits, Nat.min_self, read]
  simp

theorem clock?_fraction {k : Nat} (fields : List Nat) {n : Nat} (hn : n < 100) (hmicros : micros < 1000000)
    (next : Nat) : clock? (k + 1) (some true) fields (digits 2 n ++ 0x2E :: digits 6 micros) next =
      some ⟨fields ++ [n], micros, next != 0⟩ := by
  obtain ⟨b, rest, hrest⟩ : ∃ b rest, digits 6 micros = b :: rest := ⟨_, _, rfl⟩
  have read := fraction?_digits (fields ++ [n]) hmicros next
  rw [hrest] at read
  rw [clock?, number?_digits 2 hn, hrest]
  exact read

/-- **A time of three fields reads back.** -/
theorem clock?_time (hh : h < 100) (hm : m < 100) (hs : s < 100) (hmicros : micros < 1000000) (next : Nat) :
    clock? 3 none [] (timeBytes h m s micros) next = some ⟨[h, m, s], micros, next != 0⟩ := by
  rw [timeBytes, clock?_field (by simp) _ hh (by simp [digits_two]), clock?_field (by simp) _ hm (by simp [digits_two]),
    fractionBytes]
  split
  case isTrue zero => rw [List.append_nil, clock?_last _ hs, zero]; rfl
  case isFalse => rw [clock?_fraction _ hs hmicros]; rfl

theorem clock?_short (hh : h < 100) (hm : m < 100) (next : Nat) :
    clock? 3 none [] (shortBytes h m) next = some ⟨[h, m], 0, next != 0⟩ := by
  rw [shortBytes, clock?_field (by simp) _ hh (by simp [digits_two]), clock?_last _ hm]
  rfl

/-! ## Distances from UTC -/

def distanceBytes (micros : Nat) : List Nat :=
  if micros / second % 60 = 0 ∧ micros % second = 0 then shortBytes (micros / hour) (micros / minute % 60)
  else timeBytes (micros / hour) (micros / minute % 60) (micros / second % 60) (micros % second)

def offsetBytes : Option Int → List Nat
  | none => []
  | some o => (if o < 0 then 0x2D else 0x2B) :: distanceBytes o.natAbs

theorem second_eq : second = 1000000 := rfl

theorem minute_eq : minute = 60000000 := rfl

theorem hour_eq : hour = 3600000000 := rfl

theorem day_eq : day = 86400000000 := rfl

theorem clock?_distance (micros : Nat) (h : micros < day) :
    ∃ c, clock? 3 none [] (distanceBytes micros) 0 = some c ∧ c.more = false ∧ c.seconds = micros / second ∧
      c.micros = micros % second := by
  rw [day_eq] at h
  have hh : micros / hour < 100 := by rw [hour_eq]; omega
  have hm : micros / minute % 60 < 100 := by omega
  have hs : micros / second % 60 < 100 := by omega
  have hf : micros % second < 1000000 := by rw [second_eq]; omega
  have sum : micros / hour * 3600 + micros / minute % 60 * 60 + micros / second % 60 = micros / second := by
    rw [hour_eq, minute_eq, second_eq]
    omega
  rw [distanceBytes]
  split
  case isTrue whole =>
    refine ⟨_, clock?_short hh hm 0, rfl, ?_, whole.2.symm⟩
    rw [whole.1] at sum
    exact sum
  case isFalse => exact ⟨_, clock?_time hh hm hs hf 0, rfl, sum, rfl⟩

/-- **A distance from UTC that is zero or at least a second reads back.** -/
theorem offset?_offsetBytes {o : Int} (hday : -(day : Int) < o ∧ o < day) (h : o = 0 ∨ second ≤ o.natAbs) :
    offset? (offsetBytes (some o)) = some o := by
  simp only [second_eq, day_eq] at h hday
  obtain ⟨c, read, done, seconds, micros⟩ := clock?_distance o.natAbs (by rw [day_eq]; omega)
  have signed : ∀ sign : Nat, sign ≠ 0x5A → offset? (sign :: distanceBytes o.natAbs) =
      some (if c.seconds = 0 then 0 else if sign = 0x2D then -(c.seconds * second + c.micros : Int)
        else (c.seconds * second + c.micros : Int)) := by
    intro sign hsign
    rw [offset?.eq_def]
    split
    · rename_i empty
      cases empty
    · rename_i same
      exact absurd (List.cons.inj same).1 hsign
    · rename_i same
      cases same
      simp only [read, Option.bind_eq_bind, Option.bind_some, done]
      by_cases zero : c.seconds = 0 <;> simp [zero]
  rw [offsetBytes, signed _ (by split <;> decide)]
  congr 1
  simp only [seconds, micros, second_eq]
  split
  case isTrue zero => omega
  case isFalse => split <;> split <;> omega

/-- no other distance from UTC is read -/
theorem regular_of_offset? {bytes : List Nat} {o : Int} (h : offset? bytes = some o) : o = 0 ∨ second ≤ o.natAbs := by
  rw [offset?.eq_def] at h
  split at h
  · cases h
  · split at h <;> cases h
    exact .inl rfl
  · obtain ⟨c, -, h⟩ := Option.bind_eq_some_iff.1 h
    split at h
    · cases h
    split at h
    · cases h
      exact .inl rfl
    · right
      rw [second_eq] at h ⊢
      cases h
      split <;> omega

theorem regular_of_time? {bytes : List Nat} {c : Clock} {o : Int} (h : time? bytes = some (c, some o)) :
    o = 0 ∨ second ≤ o.natAbs := by
  obtain ⟨d, -, h⟩ := Option.bind_eq_some_iff.1 h
  split at h
  · split at h <;> cases h
  · obtain ⟨o', read, h⟩ := Option.bind_eq_some_iff.1 h
    cases h
    exact regular_of_offset? read

theorem notBegins_digits {width n : Nat} : ∀ b ∈ digits width n, (!beginsOffset b) = true := by
  intro b hb
  have := isDigit_of_mem_digits hb
  simp only [beginsOffset, Bool.not_eq_true', Bool.or_eq_false_iff, beq_eq_false_iff_ne]
  omega

theorem notBegins_time : ∀ b ∈ timeBytes h m s micros, (!beginsOffset b) = true := by
  intro b hb
  have fraction : ∀ b ∈ fractionBytes micros, (!beginsOffset b) = true := by
    intro b hb
    rw [fractionBytes] at hb
    split at hb
    · cases hb
    · rcases List.mem_cons.1 hb with rfl | hb
      · decide
      · exact notBegins_digits b hb
  simp only [timeBytes, List.mem_append, List.mem_cons] at hb
  rcases hb with hb | rfl | hb | rfl | hb | hb
  · exact notBegins_digits b hb
  · decide
  · exact notBegins_digits b hb
  · decide
  · exact notBegins_digits b hb
  · exact fraction b hb

theorem time?_bytes (hh : h < 100) (hm : m < 100) (hs : s < 100) (hmicros : micros < 1000000) {offset : Option Int}
    (hday : ∀ o ∈ offset, -(day : Int) < o ∧ o < day) (regular : ∀ o ∈ offset, o = 0 ∨ second ≤ o.natAbs) :
    ∃ more, time? (timeBytes h m s micros ++ offsetBytes offset) = some (⟨[h, m, s], micros, more⟩, offset) := by
  rcases offset with _ | o
  · refine ⟨false, ?_⟩
    rw [offsetBytes, List.append_nil, time?, List.takeWhile_eq_self_iff.2 notBegins_time, List.dropWhile_eq_nil_iff.2 notBegins_time]
    simp [clock?_time hh hm hs hmicros]
  · refine ⟨true, ?_⟩
    obtain ⟨sign, hsign, begins⟩ : ∃ sign, offsetBytes (some o) = sign :: distanceBytes o.natAbs ∧
        (sign = 0x2D ∨ sign = 0x2B) := by
      refine ⟨_, rfl, ?_⟩
      split <;> simp
    have cut : (!beginsOffset sign) = false := by rcases begins with rfl | rfl <;> rfl
    have read := offset?_offsetBytes (hday o rfl) (regular o rfl)
    rw [hsign] at read ⊢
    rw [time?, List.takeWhile_append_of_pos notBegins_time, List.dropWhile_append_of_pos notBegins_time,
      List.takeWhile_cons_of_neg (by simp [cut]), List.dropWhile_cons_of_neg (by simp [cut]), List.append_nil]
    have nonzero : (sign != 0) = true := by rcases begins with rfl | rfl <;> rfl
    simp [clock?_time hh hm hs hmicros, read, nonzero]

/-! ## Dates -/

def dateBytes (d : Date) : List Nat :=
  digits 4 d.year ++ 0x2D :: (digits 2 d.month ++ 0x2D :: digits 2 d.day)

theorem digits_four (n : Nat) :
    digits 4 n = [0x30 + n / 10 / 10 / 10 % 10, 0x30 + n / 10 / 10 % 10, 0x30 + n / 10 % 10, 0x30 + n % 10] := rfl

theorem length_dateBytes (d : Date) : (dateBytes d).length = 10 := by
  simp [dateBytes, length_digits]

theorem dateLength?_bytes (d : Date) (rest : List Nat) (h : 7 ≤ rest.length) :
    dateLength? (dateBytes d ++ rest) = some 10 := by
  have total : (dateBytes d ++ rest).length ≠ 7 := by
    rw [List.length_append, length_dateBytes]
    omega
  have dash : byteAt (dateBytes d ++ rest) 4 = 0x2D := by simp [byteAt, dateBytes, digits_four, digits_two]
  have noWeek : byteAt (dateBytes d ++ rest) 5 ≠ 0x57 := by
    simp only [byteAt, dateBytes, digits_four, digits_two, List.cons_append, List.nil_append,
      List.getElem?_cons_succ, List.getElem?_cons_zero, Option.getD_some]
    omega
  rw [dateLength?]
  simp only [if_neg total, dash, if_true, if_neg noWeek]

theorem hyphen?_cons (b : Nat) (rest : List Nat) : hyphen? true (b :: rest) = if b = 0x2D then some rest else none := by
  simp [hyphen?]

theorem date?_bytes (d : Date) (hyear : d.year < 10000) (hmonth : d.month < 100) (hday : d.day < 100) (rest : List Nat) :
    date? 10 (dateBytes d ++ rest) = some d := by
  have shape : dateBytes d ++ rest = digits 4 d.year ++ (0x2D :: (digits 2 d.month ++ (0x2D :: (digits 2 d.day ++ rest)))) := by
    simp [dateBytes]
  have month : ∃ b more, digits 2 d.month ++ (0x2D :: (digits 2 d.day ++ rest)) = b :: more ∧ b ≠ 0x57 := by
    refine ⟨_, _, rfl, ?_⟩
    omega
  obtain ⟨b, more, hb, noWeek⟩ := month
  have readMonth := number?_digits 2 (n := d.month) hmonth (0x2D :: (digits 2 d.day ++ rest))
  rw [shape, date?, number?_digits 4 hyear]
  simp only [Option.bind_eq_bind, Option.bind_some, byteAt, List.getElem?_cons_zero, Option.getD_some, beq_self_eq_true,
    if_true, List.drop_succ_cons, List.drop_zero]
  rw [hb] at readMonth ⊢
  split
  · rename_i same
    exact absurd (List.cons.inj same).1 noWeek
  · rw [readMonth]
    simp only [Option.bind_some, hyphen?_cons, if_true]
    rw [number?_digits 2 hday]
    rfl

theorem ofBytes?_bytes (d : Date) (hyear : d.year < 10000) (hmonth : d.month < 100) (hd : d.day < 100) (hh : h < 100)
    (hm : m < 100) (hs : s < 100) (hmicros : micros < 1000000) {offset : Option Int}
    (hday : ∀ o ∈ offset, -(day : Int) < o ∧ o < day) (regular : ∀ o ∈ offset, o = 0 ∨ second ≤ o.natAbs) :
    ∃ more, ofBytes? (dateBytes d ++ 0x54 :: (timeBytes h m s micros ++ offsetBytes offset)) =
      some ⟨d, ⟨[h, m, s], micros, more⟩, offset⟩ := by
  obtain ⟨more, read⟩ := time?_bytes hh hm hs hmicros hday regular
  refine ⟨more, ?_⟩
  have long : 7 ≤ (0x54 :: (timeBytes h m s micros ++ offsetBytes offset)).length := by
    simp only [timeBytes, List.length_cons, List.length_append, length_digits]
    omega
  have behind : (dateBytes d ++ 0x54 :: (timeBytes h m s micros ++ offsetBytes offset)).drop 10 =
      0x54 :: (timeBytes h m s micros ++ offsetBytes offset) := List.drop_left' (length_dateBytes d)
  rw [ofBytes?, dateLength?_bytes d _ long]
  simp only [Option.bind_eq_bind, Option.bind_some, date?_bytes d hyear hmonth hd]
  rw [if_neg (by rw [List.length_append, length_dateBytes]; omega), behind, dropChar, if_pos (by decide), read]
  rfl

end IsoReader

/-! ## Written forms -/

theorem bytesOf_append (a b : List Char) : bytesOf (a ++ b) = bytesOf a ++ bytesOf b := List.map_append

theorem bytesOf_fractionText {micros : Nat} (h : micros < 1000000) :
    bytesOf (fractionText micros).toList = IsoReader.fractionBytes micros := by
  rw [fractionText, IsoReader.fractionBytes]
  split
  · rfl
  · rw [String.toList_append, bytesOf_append, bytesOf_padded 6 h]
    rfl

theorem bytesOf_dateText (d : Date) (hyear : d.year < 10000) (hmonth : d.month < 100) (hd : d.day < 100) :
    bytesOf d.text.toList = IsoReader.dateBytes d := by
  simp only [Date.text, String.toList_append, bytesOf_append, bytesOf_padded 4 hyear,
    bytesOf_padded 2 hmonth, bytesOf_padded 2 hd, IsoReader.dateBytes, List.append_assoc]
  rfl

theorem bytesOf_timeText {micros : Nat} (h : micros < day) : bytesOf (timeText micros).toList =
    IsoReader.timeBytes (micros / hour) (micros / minute % 60) (micros / second % 60) (micros % second) := by
  rw [IsoReader.day_eq] at h
  have hh : micros / hour < 10 ^ 2 := by rw [IsoReader.hour_eq]; omega
  have hm : micros / minute % 60 < 10 ^ 2 := by omega
  have hs : micros / second % 60 < 10 ^ 2 := by omega
  have hf : micros % second < 1000000 := by rw [IsoReader.second_eq]; omega
  simp only [timeText, String.toList_append, bytesOf_append, bytesOf_padded 2 hh, bytesOf_padded 2 hm, bytesOf_padded 2 hs,
    bytesOf_fractionText hf, IsoReader.timeBytes, List.append_assoc]
  rfl

theorem bytesOf_distanceText {micros : Nat} (h : micros < day) :
    bytesOf (distanceText micros).toList = IsoReader.distanceBytes micros := by
  rw [IsoReader.day_eq] at h
  have hh : micros / hour < 10 ^ 2 := by rw [IsoReader.hour_eq]; omega
  have hm : micros / minute % 60 < 10 ^ 2 := by omega
  have hs : micros / second % 60 < 10 ^ 2 := by omega
  have hf : micros % second < 1000000 := by rw [IsoReader.second_eq]; omega
  rw [distanceText, IsoReader.distanceBytes]
  by_cases whole : micros / second % 60 = 0 ∧ micros % second = 0
  · simp only [if_pos whole, String.toList_append, bytesOf_append, bytesOf_padded 2 hh, bytesOf_padded 2 hm,
      IsoReader.shortBytes, List.append_assoc]
    rfl
  · simp only [if_neg whole, String.toList_append, bytesOf_append, bytesOf_padded 2 hh, bytesOf_padded 2 hm,
      bytesOf_padded 2 hs, bytesOf_fractionText hf, IsoReader.timeBytes, List.append_assoc]
    rfl

theorem bytesOf_offsetText {offset : Option Int} (h : ∀ o ∈ offset, -(day : Int) < o ∧ o < day) :
    bytesOf (offsetText offset).toList = IsoReader.offsetBytes offset := by
  rcases offset with _ | o
  · rfl
  · have bound : o.natAbs < day := by
      have := h o rfl
      omega
    rw [offsetText, String.toList_append, bytesOf_append, bytesOf_distanceText bound, IsoReader.offsetBytes]
    split <;> rfl

theorem ascii_digits {width n : Nat} : ∀ b ∈ digits width n, b < 0x80 := by
  intro b hb
  have := isDigit_of_mem_digits hb
  omega

/-- the bytes of a text of characters below 128 are these characters -/
theorem encode_ascii {s : String} (h : ∀ c ∈ s.toList, c.toNat < 0x80) :
    (Utf8.encode s).map UInt8.toNat = bytesOf s.toList := by
  rw [Utf8.encode, bytesOf]
  generalize s.toList = cs at h
  induction cs with
  | nil => rfl
  | cons c cs ih =>
    have hc : c.toNat < 0x80 := h c List.mem_cons_self
    have one : String.utf8EncodeChar c = [UInt8.ofNat c.toNat] := by
      rw [String.utf8EncodeChar]
      exact if_pos (by show c.toNat ≤ 0x7F; omega)
    rw [List.flatMap_cons, List.map_append, List.map_cons, ih fun x hx => h x (List.mem_cons_of_mem _ hx), one,
      List.map_singleton, UInt8.toNat_ofNat_of_lt' (Nat.lt_trans hc (by decide))]
    rfl

namespace Timestamp

/-- the distance from UTC is unknown, nothing, or at least a second -/
def Regular (t : Timestamp) : Prop := ∀ o ∈ t.offset, o = 0 ∨ second ≤ o.natAbs

instance (t : Timestamp) : Decidable t.Regular :=
  inferInstanceAs (Decidable (∀ o ∈ t.offset, o = 0 ∨ second ≤ o.natAbs))

theorem timeOfDay_lt (t : Timestamp) : t.timeOfDay < day := Nat.mod_lt _ (by decide)

theorem bytesOf_iso (t : Timestamp) : bytesOf t.iso.toList =
    IsoReader.dateBytes t.date ++ 0x54 :: (IsoReader.timeBytes (t.timeOfDay / hour) (t.timeOfDay / minute % 60)
      (t.timeOfDay / second % 60) (t.timeOfDay % second) ++ IsoReader.offsetBytes t.offset) := by
  obtain ⟨-, hyear, hmonth, hday⟩ := Date.ofDay_bounds t.date_day_lt
  have date := bytesOf_dateText t.date (Nat.lt_succ_of_le hyear) (Nat.lt_of_le_of_lt hmonth (by decide))
    (Nat.lt_of_le_of_lt hday (by decide))
  simp only [iso, text, String.toList_append, bytesOf_append, date, bytesOf_timeText t.timeOfDay_lt,
    bytesOf_offsetText t.offset_lt, List.append_assoc]
  rfl

theorem iso_ascii (t : Timestamp) : ∀ c ∈ t.iso.toList, c.toNat < 0x80 := by
  intro c hc
  have hb : c.toNat ∈ bytesOf t.iso.toList := List.mem_map_of_mem hc
  have fraction : ∀ {micros b : Nat}, b ∈ IsoReader.fractionBytes micros → b < 0x80 := by
    intro micros b h
    rw [IsoReader.fractionBytes] at h
    split at h
    · cases h
    · rcases List.mem_cons.1 h with rfl | h
      · decide
      · exact ascii_digits b h
  have time : ∀ {h m s micros b : Nat}, b ∈ IsoReader.timeBytes h m s micros → b < 0x80 := by
    intro h m s micros b hb
    simp only [IsoReader.timeBytes, List.mem_append, List.mem_cons] at hb
    rcases hb with hb | rfl | hb | rfl | hb | hb
    · exact ascii_digits b hb
    · decide
    · exact ascii_digits b hb
    · decide
    · exact ascii_digits b hb
    · exact fraction hb
  have distance : ∀ {micros b : Nat}, b ∈ IsoReader.distanceBytes micros → b < 0x80 := by
    intro micros b hb
    rw [IsoReader.distanceBytes] at hb
    split at hb
    · simp only [IsoReader.shortBytes, List.mem_append, List.mem_cons] at hb
      rcases hb with hb | rfl | hb
      · exact ascii_digits b hb
      · decide
      · exact ascii_digits b hb
    · exact time hb
  have offset : ∀ {offset : Option Int} {b : Nat}, b ∈ IsoReader.offsetBytes offset → b < 0x80 := by
    intro offset b hb
    rcases offset with _ | o
    · cases hb
    · rcases List.mem_cons.1 hb with rfl | hb
      · split <;> decide
      · exact distance hb
  simp only [bytesOf_iso, IsoReader.dateBytes, List.mem_append, List.mem_cons] at hb
  rcases hb with (hb | hb | hb | hb | hb) | hb | hb | hb
  · exact ascii_digits _ hb
  · rw [hb]; decide
  · exact ascii_digits _ hb
  · rw [hb]; decide
  · exact ascii_digits _ hb
  · rw [hb]; decide
  · exact time hb
  · exact offset hb

theorem ofText?_iso {t : Timestamp} (h : t.Regular) : ∃ more, IsoReader.ofText? t.iso = some ⟨t.date,
    ⟨[t.timeOfDay / hour, t.timeOfDay / minute % 60, t.timeOfDay / second % 60], t.timeOfDay % second, more⟩,
    t.offset⟩ := by
  obtain ⟨-, hyear, hmonth, hday⟩ := Date.ofDay_bounds t.date_day_lt
  have short := t.timeOfDay_lt
  rw [IsoReader.day_eq] at short
  have hh : t.timeOfDay / hour < 100 := by rw [IsoReader.hour_eq]; omega
  have hf : t.timeOfDay % second < 1000000 := by rw [IsoReader.second_eq]; omega
  obtain ⟨more, read⟩ := IsoReader.ofBytes?_bytes t.date (Nat.lt_succ_of_le hyear)
    (Nat.lt_of_le_of_lt hmonth (by decide)) (Nat.lt_of_le_of_lt hday (by decide)) hh
    (m := t.timeOfDay / minute % 60) (s := t.timeOfDay / second % 60) (by omega) (by omega) hf t.offset_lt h
  refine ⟨more, ?_⟩
  have long : ¬ t.iso.length < 7 := by
    have count : t.iso.length = (bytesOf t.iso.toList).length := by
      rw [bytesOf, List.length_map, String.length_toList]
    rw [count, bytesOf_iso, List.length_append, IsoReader.length_dateBytes]
    omega
  rw [IsoReader.ofText?, if_neg long, encode_ascii t.iso_ascii, bytesOf_iso, read]

/-- **The written form of a timestamp reads back.** -/
theorem ofIso?_iso {t : Timestamp} (h : t.Regular) : ofIso? t.iso = some t := by
  obtain ⟨more, read⟩ := ofText?_iso h
  have short := t.timeOfDay_lt
  rw [IsoReader.day_eq] at short
  have ofParts : (⟨t.date, ⟨[t.timeOfDay / hour, t.timeOfDay / minute % 60, t.timeOfDay / second % 60],
      t.timeOfDay % second, more⟩, t.offset⟩ : IsoReader.Parts).timestamp? = some t := by
    have time : IsoReader.Clock.timeOfDay? ⟨[t.timeOfDay / hour, t.timeOfDay / minute % 60, t.timeOfDay / second % 60],
        t.timeOfDay % second, more⟩ = some t.timeOfDay := by
      have hours : t.timeOfDay / hour < 24 := by rw [IsoReader.hour_eq]; omega
      have minutes : t.timeOfDay / minute % 60 < 60 := Nat.mod_lt _ (by decide)
      have seconds : t.timeOfDay / second % 60 < 60 := Nat.mod_lt _ (by decide)
      have sum : (t.timeOfDay / hour * 3600 + t.timeOfDay / minute % 60 * 60 + t.timeOfDay / second % 60) * second +
          t.timeOfDay % second = t.timeOfDay := by
        rw [IsoReader.hour_eq, IsoReader.minute_eq, IsoReader.second_eq]
        omega
      rw [IsoReader.Clock.timeOfDay?, if_pos ⟨hours, minutes, seconds⟩]
      exact congrArg some sum
    rw [IsoReader.Parts.timestamp?]
    simp only [time, Option.bind_eq_bind, Option.bind_some]
    exact t.of?_date
  rw [ofIso?, ofText, read]
  simp only [ofParts]
  rfl

/-- only such timestamps are read -/
theorem regular_of_ofIso? {s : String} {t : Timestamp} (h : ofIso? s = some t) : t.Regular := by
  obtain ⟨p, hp, made⟩ : ∃ p, IsoReader.ofText? s = some p ∧ p.timestamp? = some t := by
    rw [ofIso?, ofText] at h
    split at h
    · cases h
    · rename_i p hp
      refine ⟨p, hp, ?_⟩
      split at h
      · rename_i u hu
        cases h
        exact hu
      · cases h
  have given : t.offset = p.offset := by
    obtain ⟨micros, -, made⟩ := Option.bind_eq_some_iff.1 made
    rw [of?] at made
    split at made
    · cases made
      rfl
    · cases made
  rw [IsoReader.ofText?] at hp
  split at hp
  · cases hp
  obtain ⟨length, -, hp⟩ := Option.bind_eq_some_iff.1 hp
  obtain ⟨date, -, hp⟩ := Option.bind_eq_some_iff.1 hp
  split at hp
  · cases hp
    intro o ho
    rw [given] at ho
    cases ho
  obtain ⟨⟨clock, offset⟩, time, hp⟩ := Option.bind_eq_some_iff.1 hp
  cases hp
  intro o ho
  rw [given, Option.mem_def] at ho
  dsimp only at ho
  subst ho
  exact IsoReader.regular_of_time? time

end Timestamp

end Depot.Time
