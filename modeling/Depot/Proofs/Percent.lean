/-
A text that is percent encoded reads back as it was.

`Utf8.decodeFrom_encode`: reading the bytes of a text gives its characters, whatever the text is. `pieces_encode`: the
written form of bytes is read as these bytes. `decode_encode` puts both together.
-/
import Mathlib.Tactic
import Depot.Text.Percent

namespace Depot.Text

namespace Utf8

/-! ## Characters as bytes -/

theorem step_none (n : Nat) (h : n < 256) : step none (UInt8.ofNat n) = begin n := by
  rw [step, UInt8.toNat_ofNat_of_lt' h]

theorem step_some (p : Pending) (n : Nat) (h : n < 256) : step (some p) (UInt8.ofNat n) = resume p n := by
  rw [step, UInt8.toNat_ofNat_of_lt' h]

theorem resume_more {bits owed low high n : Nat} (h : low ≤ n ∧ n ≤ high) :
    resume ⟨bits, owed + 2, low, high⟩ n = ([], some ⟨bits * 64 + (n - 0x80), owed + 1, 0x80, 0xBF⟩) := by
  rw [resume, if_pos h, if_neg (by simp)]
  rfl

theorem resume_last {bits low high n : Nat} (h : low ≤ n ∧ n ≤ high) :
    resume ⟨bits, 1, low, high⟩ n = ([Char.ofNat (bits * 64 + (n - 0x80))], none) := by
  rw [resume, if_pos h, if_pos (Nat.le_refl 1)]

theorem begin_three {v : Nat} (above : 0x7FF < v) (below : v ≤ 0xFFFF) (scalar : v < 0xD800 ∨ 0xDFFF < v) :
    ∃ low high, begin (v / 4096 % 16 + 0xE0) = ([], some ⟨v / 4096, 2, low, high⟩) ∧
      low ≤ v / 64 % 64 + 0x80 ∧ v / 64 % 64 + 0x80 ≤ high := by
  have lead : v / 4096 % 16 = v / 4096 := by omega
  rw [lead, begin, if_neg (by omega), lead?, if_neg (by omega)]
  by_cases first : v / 4096 = 0
  · exact ⟨0xA0, 0xBF, by simp [first], by omega, by omega⟩
  · by_cases surrogates : v / 4096 = 0xD
    · exact ⟨0x80, 0x9F, by simp [surrogates], by omega, by omega⟩
    · refine ⟨0x80, 0xBF, ?_, by omega, by omega⟩
      rw [if_neg (by omega), if_neg (by omega), if_pos (by omega)]
      simp

theorem begin_four {v : Nat} (above : 0xFFFF < v) (below : v < 0x110000) :
    ∃ low high, begin (v / 262144 % 8 + 0xF0) = ([], some ⟨v / 262144, 3, low, high⟩) ∧
      low ≤ v / 4096 % 64 + 0x80 ∧ v / 4096 % 64 + 0x80 ≤ high := by
  have lead : v / 262144 % 8 = v / 262144 := by omega
  rw [lead, begin, if_neg (by omega), lead?, if_neg (by omega), if_neg (by omega), if_neg (by omega), if_neg (by omega)]
  by_cases first : v / 262144 = 0
  · exact ⟨0x90, 0xBF, by simp [first], by omega, by omega⟩
  · by_cases last : v / 262144 = 4
    · exact ⟨0x80, 0x8F, by simp [last], by omega, by omega⟩
    · refine ⟨0x80, 0xBF, ?_, by omega, by omega⟩
      rw [if_neg (by omega), if_pos (by omega)]
      simp

/-- **The bytes of a character read as the character.** -/
theorem decodeFrom_char (c : Char) (rest : List UInt8) :
    decodeFrom none (String.utf8EncodeChar c ++ rest) = c :: decodeFrom none rest := by
  have back : Char.ofNat c.val.toNat = c := Char.ofNat_toNat c
  have valid : c.val.toNat < 0xD800 ∨ 0xDFFF < c.val.toNat ∧ c.val.toNat < 0x110000 := c.valid
  rw [String.utf8EncodeChar]
  generalize c.val.toNat = v at back valid
  by_cases one : v ≤ 0x7F
  · rw [if_pos one, List.singleton_append, decodeFrom, step_none v (by omega), begin, if_pos (by omega), back]
    rfl
  rw [if_neg one]
  by_cases two : v ≤ 0x7FF
  · have lead : v / 64 % 0x20 = v / 64 := by omega
    have begun : begin (v / 64 + 0xC0) = ([], some ⟨v / 64, 1, 0x80, 0xBF⟩) := by
      rw [begin, if_neg (by omega), lead?, if_pos (by omega)]
      simp
    have whole : v / 64 * 64 + (v % 64 + 0x80 - 0x80) = v := by omega
    rw [if_pos two, lead]
    simp only [List.cons_append, List.nil_append, decodeFrom]
    rw [step_none _ (by omega), begun, step_some _ _ (by omega), resume_last (by omega), whole, back]
    rfl
  rw [if_neg two]
  by_cases three : v ≤ 0xFFFF
  · obtain ⟨low, high, begun, range⟩ := begin_three (v := v) (by omega) three (by omega)
    have whole : (v / 4096 * 64 + (v / 64 % 64 + 0x80 - 0x80)) * 64 + (v % 64 + 0x80 - 0x80) = v := by omega
    rw [if_pos three]
    simp only [List.cons_append, List.nil_append, decodeFrom]
    rw [step_none _ (by omega), begun, step_some _ _ (by omega), resume_more range, step_some _ _ (by omega),
      resume_last (by omega), whole, back]
    rfl
  · obtain ⟨low, high, begun, range⟩ := begin_four (v := v) (by omega) (by omega)
    have whole : ((v / 262144 * 64 + (v / 4096 % 64 + 0x80 - 0x80)) * 64 + (v / 64 % 64 + 0x80 - 0x80)) * 64 +
        (v % 64 + 0x80 - 0x80) = v := by omega
    rw [if_neg three]
    simp only [List.cons_append, List.nil_append, decodeFrom]
    rw [step_none _ (by omega), begun, step_some _ _ (by omega), resume_more range, step_some _ _ (by omega),
      resume_more (by omega), step_some _ _ (by omega), resume_last (by omega), whole, back]
    rfl

/-- **The bytes of a text read as its characters.** -/
theorem decodeFrom_encode (s : String) : decodeFrom none (encode s) = s.toList := by
  rw [encode]
  generalize s.toList = cs
  induction cs with
  | nil => rfl
  | cons c cs ih => rw [List.flatMap_cons, decodeFrom_char, ih]

end Utf8

namespace Percent

/-! ## Bytes as written -/

theorem hexValue?_hexDigit : ∀ n < 16, hexValue? (hexDigit n) = some n := by decide

theorem escape?_hexDigit (b : UInt8) : escape? (hexDigit (b.toNat / 16)) (hexDigit (b.toNat % 16)) = some b := by
  have := b.toNat_lt
  have whole : b.toNat / 16 * 16 + b.toNat % 16 = b.toNat := by omega
  rw [escape?, hexValue?_hexDigit _ (by omega), hexValue?_hexDigit _ (by omega)]
  show some (b.toNat / 16 * 16 + b.toNat % 16).toUInt8 = some b
  rw [whole]
  exact congrArg some UInt8.ofNat_toNat

theorem ofChar_plain : ∀ n < 256, isPlain (UInt8.ofNat n) = true →
    Char.ofNat n ≠ '%' ∧ Piece.ofChar (Char.ofNat n) = .byte (UInt8.ofNat n) := by decide +kernel

theorem pieces_cons {c : Char} (h : c ≠ '%') (rest : List Char) : pieces (c :: rest) = Piece.ofChar c :: pieces rest := by
  rw [pieces]
  rintro - - - rfl
  exact absurd rfl h

theorem pieces_encodeByte (b : UInt8) (rest : List Char) : pieces (encodeByte b ++ rest) = .byte b :: pieces rest := by
  rw [encodeByte]
  split
  case isTrue plain =>
    have here := ofChar_plain b.toNat b.toNat_lt
    rw [UInt8.ofNat_toNat] at here
    rw [List.singleton_append, pieces_cons (here plain).1, (here plain).2]
  case isFalse =>
    simp only [List.cons_append, List.nil_append]
    rw [pieces, escape?_hexDigit]

theorem pieces_encode (bytes : List UInt8) : pieces (bytes.flatMap encodeByte) = bytes.map .byte := by
  induction bytes with
  | nil => rfl
  | cons b bytes ih => rw [List.flatMap_cons, pieces_encodeByte, ih, List.map_cons]

theorem join_bytes (p : Option Utf8.Pending) (bytes : List UInt8) :
    join p (bytes.map .byte) = Utf8.decodeFrom p bytes := by
  induction bytes generalizing p with
  | nil => rfl
  | cons b bytes ih => rw [List.map_cons, join, Utf8.decodeFrom, ih]

/-- **A percent-encoded text reads back as it was.** -/
theorem decode_encode (s : String) : decode (encode s) = s := by
  rw [decode, encode, String.toList_ofList, pieces_encode, join_bytes, Utf8.decodeFrom_encode, String.ofList_toList]

end Percent

end Depot.Text
