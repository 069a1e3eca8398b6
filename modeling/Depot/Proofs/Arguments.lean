/-
Numbers as arguments of the cleanup.

A number that is written in decimal digits is read as that number, unless it has too many of them (`read?_ofInt`), and as
an argument it is no switch (`kindOf_ofInt`).
- `request_integers`: the two switches of the cleanup with any two numbers are read as just these.
-/
import Mathlib.Data.List.TakeWhile
import Depot.Command.Basic

namespace Depot

namespace Text.Numeral

variable {c : Char} {cs : List Char} {n : Nat}

def worth (c : Char) : Nat :=
  c.toNat - '0'.toNat

theorem isDigit_of_mem (h : c ∈ Nat.toDigits 10 n) : c.isDigit = true :=
  Nat.isDigit_of_mem_toDigits (by decide) (by decide) h

theorem toDigits_split (n : Nat) : ∃ c rest, Nat.toDigits 10 n = c :: rest ∧ c.isDigit = true := by
  obtain ⟨c, rest, split⟩ := List.exists_cons_of_ne_nil (Nat.toDigits_ne_nil (n := n) (b := 10))
  exact ⟨c, rest, split, isDigit_of_mem (split ▸ List.mem_cons_self)⟩

theorem value?_of_isDigit (h : c.isDigit = true) : Digit.value? c = some (worth c) := by
  obtain ⟨low, high⟩ : 48 ≤ c.toNat ∧ c.toNat ≤ 57 := Char.isDigit_iff_toNat.1 h
  unfold Digit.value? Digit.zeros
  rw [List.find?_cons_of_pos (by simp [low, high])]
  rfl

theorem digit?_of_isDigit (h : c.isDigit = true) : Radix.decimal.digit? c = some (worth c) := by
  obtain ⟨low, high⟩ : 48 ≤ c.toNat ∧ c.toNat ≤ 57 := Char.isDigit_iff_toNat.1 h
  have small : ¬('a' ≤ c) := fun le => absurd (show 97 ≤ c.toNat from le) (by omega)
  have capital : ¬('A' ≤ c) := fun le => absurd (show 65 ≤ c.toNat from le) (by omega)
  unfold Radix.digit?
  simp only [small, capital, decide_false, Bool.false_and, Bool.false_eq_true, if_false, value?_of_isDigit h]
  apply Option.filter_eq_some_iff.2
  refine ⟨rfl, decide_eq_true ?_⟩
  show c.toNat - 48 < 10
  omega

theorem digits?_of_isDigit (h : ∀ c ∈ cs, c.isDigit = true) (nonempty : cs ≠ []) :
    Radix.decimal.digits? cs = .some (cs.map worth) := by
  induction cs with
  | nil => exact absurd rfl nonempty
  | cons c rest ih =>
    have first := digit?_of_isDigit (h c List.mem_cons_self)
    have later : ∀ d ∈ rest, d.isDigit = true := fun d hd => h d (List.mem_cons_of_mem c hd)
    cases rest with
    | nil => simp [Radix.digits?, first]
    | cons d rest =>
      have mark : d ≠ '_' := by
        rintro rfl
        exact absurd (later '_' List.mem_cons_self) (by decide)
      rw [Radix.digits?, first, ih later (List.cons_ne_nil d rest)]
      · rfl
      · intro empty
        cases empty
      · intro more split
        exact mark (List.cons.inj split).1

theorem unmarked_decimal (cs : List Char) : Radix.decimal.unmarked cs = cs := by
  unfold Radix.unmarked
  split
  · exact if_neg (by simp [Radix.decimal])
  · rfl

theorem value_toDigits (n : Nat) : Radix.decimal.value ((Nat.toDigits 10 n).map worth) = n := by
  have folded := Nat.ofDigitChars_ten_toDigits (n := n)
  rw [Nat.ofDigitChars_eq_foldl] at folded
  unfold Radix.value
  rw [List.foldl_map]
  simp only [Nat.mul_comm _ Radix.decimal.base]
  exact folded

/-- the most digits of a number that is read -/
def mostDigits : Nat := 4300

def IsShort (i : Int) : Prop :=
  (Nat.toDigits 10 i.natAbs).length ≤ mostDigits

instance (i : Int) : Decidable (IsShort i) :=
  inferInstanceAs (Decidable (_ ≤ _))

theorem magnitude_toDigits (n : Nat) : Radix.decimal.magnitude (Nat.toDigits 10 n) =
    if IsShort n then .ok n else .error (.tooLong (Nat.toDigits 10 n).length) := by
  have digits : ∀ c ∈ Nat.toDigits 10 n, c.isDigit = true := fun c hc => isDigit_of_mem hc
  have parts : ∀ c ∈ Nat.toDigits 10 n, (c == '_' || (Radix.decimal.digit? c).isSome) = true := by
    intro c hc
    rw [digit?_of_isDigit (digits c hc)]
    exact Bool.or_true _
  unfold Radix.magnitude
  dsimp only
  rw [List.takeWhile_eq_self_iff.2 parts, List.dropWhile_eq_nil_iff.2 parts,
    digits?_of_isDigit digits Nat.toDigits_ne_nil]
  dsimp only
  rw [List.length_map, List.all_nil, if_pos rfl, value_toDigits]
  by_cases short : IsShort n
  · rw [if_neg, if_pos short]
    intro long
    exact absurd (of_decide_eq_true long) (Nat.not_lt.2 short)
  · rw [if_pos, if_neg short]
    exact decide_eq_true (Nat.not_le.1 short)

theorem toList_ofInt_negSucc (n : Nat) : (ofInt (.negSucc n)).toList = '-' :: Nat.toDigits 10 (n + 1) := by
  simp [ofInt, ofNat]

/-- **A number is read as it was written,** unless it has too many digits. -/
theorem read?_ofInt (i : Int) : read? .decimal (ofInt i) =
    if IsShort i then .ok i else .error (.tooLong (Nat.toDigits 10 i.natAbs).length) := by
  cases i with
  | ofNat n =>
    obtain ⟨c, rest, split, digit⟩ := toDigits_split n
    obtain ⟨low, high⟩ : 48 ≤ c.toNat ∧ c.toNat ≤ 57 := Char.isDigit_iff_toNat.1 digit
    have visible : ¬(Blank.isBlank c = true) := by
      simp [Blank.isBlank]
      omega
    have plain : ¬(c = '-') ∧ ¬(c = '+') := by
      constructor
      · rintro rfl
        exact absurd digit (by decide)
      · rintro rfl
        exact absurd digit (by decide)
    have number := magnitude_toDigits n
    rw [split] at number
    unfold read?
    rw [show ofInt (.ofNat n) = ofNat n from rfl, ofNat, String.toList_ofList, split,
      List.dropWhile_cons_of_neg visible]
    simp only [unmarked_decimal]
    split
    · rename_i minus
      exact absurd (List.cons.inj minus).1 plain.1
    · rename_i plus
      exact absurd (List.cons.inj plus).1 plain.2
    · rw [number, ← split]
      by_cases short : IsShort n
      · rw [if_pos short]
        exact (if_pos short).symm
      · rw [if_neg short]
        exact (if_neg short).symm
  | negSucc n =>
    unfold read?
    rw [toList_ofInt_negSucc, List.dropWhile_cons_of_neg (by decide)]
    simp only [unmarked_decimal]
    rw [magnitude_toDigits]
    by_cases short : IsShort (n + 1 : Nat)
    · rw [if_pos short]
      exact (if_pos short).symm
    · rw [if_neg short]
      exact (if_neg short).symm

end Text.Numeral

namespace Command

open Text Numeral

/-! ## Numbers among the arguments -/

/-- a name is no number with a sign: no digit is behind its first character -/
def Wordy (name : String) : Prop :=
  name.toList[1]?.any Char.isDigit = false

instance (name : String) : Decidable (Wordy name) :=
  inferInstanceAs (Decidable (_ = false))

/-- no name starts with a dash and a digit -/
theorem Wordy.apart {name : String} (wordy : Wordy name) {d : Char} (digit : d.isDigit = true) (cs : List Char) :
    ¬('-' :: d :: cs <+: name.toList) := by
  intro ⟨rest, whole⟩
  have second : name.toList[1]? = some d := by
    rw [← whole]
    rfl
  rw [Wordy, second, Option.any_some, digit] at wordy
  cases wordy

theorem ofNat_head (n : Nat) : (ofNat n).toList.head? ≠ some '-' := by
  obtain ⟨c, rest, split, digit⟩ := toDigits_split n
  unfold ofNat
  rw [String.toList_ofList, split, List.head?_cons]
  intro same
  rw [Option.some.inj same] at digit
  exact absurd digit (by decide)

theorem ofInt_ne_divider (i : Int) : ofInt i ≠ divider := by
  intro same
  cases i with
  | ofNat n => exact ofNat_head n (congrArg (·.toList.head?) same)
  | negSucc n =>
    obtain ⟨d, rest, split, digit⟩ := toDigits_split (n + 1)
    have text := congrArg String.toList same
    rw [toList_ofInt_negSucc, split] at text
    obtain rfl : d = '-' := (List.cons.inj (List.cons.inj text).2).1
    exact absurd digit (by decide)

theorem ne_of_digit {cs : List Char} (digits : ∀ c ∈ cs, c.isDigit = true) (mark : Char) (other : mark.isDigit = false) :
    ∀ c ∈ cs, (c != mark) = true := by
  intro c hc
  rw [bne_iff_ne]
  rintro rfl
  rw [digits c hc] at other
  cases other

theorem isNegativeNumber_of_digits {cs : List Char} (digits : ∀ c ∈ cs, c.isDigit = true) (nonempty : cs ≠ []) :
    isNegativeNumber ('-' :: cs) = true := by
  have last : ¬(cs.getLast? = .some '\n') := by
    intro same
    exact absurd (digits _ (List.mem_of_getLast? same)) (by decide)
  have points := ne_of_digit digits '.' rfl
  unfold isNegativeNumber
  simp only [if_neg last, List.dropWhile_eq_nil_iff.2 points, List.takeWhile_eq_self_iff.2 points]
  unfold allDigits
  rw [List.isEmpty_eq_false_iff.2 nonempty]
  apply List.all_eq_true.2
  intro c hc
  rw [value?_of_isDigit (digits c hc)]
  rfl

/-- **A number is no switch,** whatever sign it has. -/
theorem kindOf_ofInt {switches : List Switch} (wordy : ∀ n ∈ named switches, Wordy n.1) (cut : Bool) (i : Int) :
    kindOf switches cut (ofInt i) = .ok .plain := by
  unfold kindOf
  dsimp only
  rw [if_neg (ofInt_ne_divider i)]
  cases i with
  | ofNat n => exact if_pos (ofNat_head n)
  | negSucc n =>
    obtain ⟨d, rest, split, digit⟩ := toDigits_split (n + 1)
    have digits : ∀ c ∈ d :: rest, c.isDigit = true := fun c hc => isDigit_of_mem (split ▸ hc)
    have text : (ofInt (.negSucc n)).toList = '-' :: d :: rest := by rw [toList_ofInt_negSucc, split]
    have unnamed : (named switches).lookup (ofInt (.negSucc n)) = none := by
      apply List.lookup_eq_none_iff.2
      intro x hx
      rw [bne_iff_ne]
      intro same
      exact (wordy x hx).apart digit rest ⟨[], by rw [List.append_nil, ← text, same]⟩
    have whole : splitAtEquals ('-' :: d :: rest) = ('-' :: d :: rest, none) := by
      have equals := ne_of_digit digits '=' rfl
      unfold splitAtEquals
      rw [List.dropWhile_cons_of_pos (by decide), List.dropWhile_eq_nil_iff.2 equals]
    have nobody : candidates switches cut ('-' :: d :: rest) = [] := by
      unfold candidates
      split
      · rename_i twice
        obtain rfl : d = '-' := (List.cons.inj (List.cons.inj twice).2).1
        cases digit
      · apply List.filterMap_eq_nil_iff.2
        intro x hx
        have apart := (wordy x hx).apart digit
        have short : ¬(x.1.toList = ('-' :: d :: rest).take 2) := by
          intro same
          exact apart [] ⟨[], same.symm⟩
        have long : ¬(('-' :: d :: rest).isPrefixOf x.1.toList = true) := by
          rw [List.isPrefixOf_iff_prefix]
          exact apart rest
        exact (if_neg short).trans (if_neg long)
    rw [text, unnamed, whole, nobody, isNegativeNumber_of_digits digits (List.cons_ne_nil d rest)]
    rfl

/-! ## Numbers as values -/

theorem read_ofInt {s : Switch} (takes : s.operand = .number []) (i : Int) : s.read (ofInt i) =
    if IsShort i then .ok ⟨s, .number i⟩ else .error (.notInteger s.label (ofInt i)) := by
  unfold Switch.read
  rw [takes, if_neg nofun, if_neg (ofInt_ne_divider i)]
  dsimp only
  rw [read?_ofInt]
  by_cases short : IsShort i
  · rw [if_pos short, if_pos short]
    rfl
  · rw [if_neg short, if_neg short]

theorem readAll_ofInt {s : Switch} (takes : s.operand = .number []) (i : Int) (switches : List Switch)
    (ends : Switch → Bool) (stage : Stage) (name : String) (rest : List (String × Kind)) :
    readAll switches ends stage ((name, .switch name s none) :: (ofInt i, .plain) :: rest) =
      if IsShort i then (readAll switches ends stage.passed rest).map (·.withGiven ⟨s, .number i⟩)
      else .error (.notInteger s.label (ofInt i)) := by
  have operand : ¬(s.operand = .nothing) := by
    rw [takes]
    nofun
  rw [readAll]
  unfold group
  dsimp only [bind, Except.bind]
  rw [if_neg operand]
  unfold Group.read readSwitches
  dsimp only
  rw [read_ofInt takes]
  by_cases short : IsShort i
  · rw [if_pos short, if_pos short]
    rfl
  · rw [if_neg short, if_neg short]
    rfl

/-! ## The arguments of the cleanup -/

/-- the two switches of the cleanup with numbers -/
def integers (days size : Int) : List String :=
  ["--retention-days", ofInt days, "--page-size", ofInt size]

def givenIntegers (days size : Int) : List Given :=
  [⟨retentionDays, .number days⟩, ⟨pageSize, .number size⟩]

theorem wordy_switches : ∀ n ∈ named Name.cleanup.switches, Wordy n.1 := by decide +kernel

theorem kinds_integers (days size : Int) : kinds Name.cleanup.switches true (integers days size) =
    .ok [("--retention-days", .switch "--retention-days" retentionDays none), (ofInt days, .plain),
      ("--page-size", .switch "--page-size" pageSize none), (ofInt size, .plain)] := by
  have first : kindOf Name.cleanup.switches true "--retention-days" =
      .ok (.switch "--retention-days" retentionDays none) := by decide +kernel
  have second : kindOf Name.cleanup.switches true "--page-size" = .ok (.switch "--page-size" pageSize none) := by
    decide +kernel
  unfold integers kinds
  rw [first]
  unfold kinds
  rw [kindOf_ofInt wordy_switches]
  unfold kinds
  rw [second]
  unfold kinds
  rw [kindOf_ofInt wordy_switches]
  rfl

/-- **The switches of the cleanup are read as their numbers.** -/
theorem request_integers (days size : Int) (hdays : IsShort days) (hsize : IsShort size) :
    Name.cleanup.request (integers days size) = .ok (.run (givenIntegers days size)) := by
  unfold Name.request parse
  rw [kinds_integers]
  dsimp only [bind, Except.bind]
  rw [readAll_ofInt rfl, if_pos hdays, readAll_ofInt rfl, if_pos hsize, readAll]
  rfl

/-- **Numbers with too many digits are not read,** and the first of them is reported. -/
theorem request_integers_long {days size : Int} (long : ¬(IsShort days ∧ IsShort size)) :
    ∃ m, Name.cleanup.request (integers days size) = .error m := by
  unfold Name.request parse
  rw [kinds_integers]
  dsimp only [bind, Except.bind]
  rw [readAll_ofInt rfl]
  by_cases hdays : IsShort days
  · have hsize : ¬IsShort size := fun hsize => long ⟨hdays, hsize⟩
    rw [if_pos hdays, readAll_ofInt rfl, if_neg hsize]
    exact ⟨_, rfl⟩
  · rw [if_neg hdays]
    exact ⟨_, rfl⟩

end Command

end Depot
