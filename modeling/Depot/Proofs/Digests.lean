/-
Digests of whole contents.

A digest made piece by piece is that of the whole (`foldl_update`), so a complete copy of a stream has the size and
the digest of what a reader of the stream gets (`result_ok`). Reading bytes at hand gives these bytes
(`content_reading`).
-/
import Mathlib.Data.List.TakeWhile
import Mathlib.Tactic
import Depot.Digest

namespace Depot

/-! ## Pieces -/

def joined (pieces : List ByteArray) : ByteArray :=
  pieces.foldl (· ++ ·) ByteArray.empty

theorem foldl_append_from (a : ByteArray) (pieces : List ByteArray) :
    pieces.foldl (· ++ ·) a = a ++ joined pieces := by
  induction pieces generalizing a with
  | nil => simp [joined]
  | cons piece pieces ih =>
    have whole : joined (piece :: pieces) = ByteArray.empty ++ piece ++ joined pieces := by
      rw [joined, List.foldl_cons, ih]
    rw [List.foldl_cons, ih, whole, ByteArray.empty_append, ByteArray.append_assoc]

theorem joined_cons (piece : ByteArray) (pieces : List ByteArray) : joined (piece :: pieces) = piece ++ joined pieces := by
  rw [joined, List.foldl_cons, foldl_append_from, ByteArray.empty_append]

theorem foldl_size_from (n : Nat) (pieces : List ByteArray) :
    pieces.foldl (fun n piece => n + piece.size) n = n + (joined pieces).size := by
  induction pieces generalizing n with
  | nil => rfl
  | cons piece pieces ih => rw [List.foldl_cons, ih, joined_cons, ByteArray.size_append, Nat.add_assoc]

namespace Hash

theorem update_empty (h : BlockHash) : h.begin.update ByteArray.empty = h.begin := by
  rw [Running.update, BlockHash.begin, BlockHash.drain, if_neg (by simp)]
  simp

/-- **A digest does not depend on the pieces.** -/
theorem foldl_update (h : BlockHash) (pieces : List ByteArray) :
    (pieces.foldl (·.update ·) h.begin).digest = h.hash (joined pieces) := by
  have from_ : ∀ (pieces : List ByteArray) (r : Running h) (a : ByteArray),
      pieces.foldl (·.update ·) (r.update a) = r.update (a ++ joined pieces) := by
    intro pieces
    induction pieces with
    | nil => intro r a; simp [joined]
    | cons piece pieces ih =>
      intro r a
      rw [List.foldl_cons, Running.update_update, ih, joined_cons, ByteArray.append_assoc]
  have := from_ pieces h.begin ByteArray.empty
  rw [update_empty, ByteArray.empty_append] at this
  rw [this, BlockHash.hash]

end Hash

/-! ## Copies -/

namespace Digest

theorem copy_chunks {ending : Ending} {pieces : List ByteArray} (h : (copy ending none pieces).fault = none) :
    (copy ending none pieces).chunks = pieces.takeWhile (·.size != 0) := by
  induction pieces with
  | nil => cases ending <;> rfl
  | cons piece pieces ih =>
    rw [copy] at h ⊢
    by_cases empty : piece.size = 0
    · simp [empty]
    · simp only [if_neg empty, Option.any_none, Bool.false_eq_true, if_false, Option.map_none] at h ⊢
      rw [ih h, List.takeWhile_cons_of_pos (by simpa using empty)]

variable {r : Reading} {name : String} {a : Hash.Algorithm} {n : Nat} {digest : String}

/-- what a size and a digest say about a content -/
def Describes (algorithm : String) (n : Nat) (digest : String) (content : ByteArray) : Prop :=
  n = content.size ∧
    ∃ a h, algorithmOf algorithm = .ok a ∧ a.function? = some h ∧ digest = Hash.hexText (h.hash content)

/-- **A complete copy has the size and the digest of the content, and the target holds the content.** -/
theorem result_ok (known : algorithmOf name = .ok a) (h : (copy r.ending none r.pieces).result name a = .ok (n, digest)) :
    Describes name n digest r.content ∧ (copy r.ending none r.pieces).written = r.content := by
  have complete : (copy r.ending none r.pieces).fault = none := by
    rw [Copied.result] at h
    split at h
    · cases h
    · assumption
  have chunks := copy_chunks complete
  have written : (copy r.ending none r.pieces).written = r.content := by
    rw [Copied.written, chunks]
    rfl
  have size : (copy r.ending none r.pieces).size = r.content.size := by
    rw [Copied.size, foldl_size_from, Nat.zero_add, ← written]
    rfl
  obtain ⟨f, hf⟩ : ∃ f, a.function? = some f := by
    rcases hf : a.function? with _ | f
    · rw [Copied.result, complete, Copied.digest?, hf] at h
      cases h
    · exact ⟨f, rfl⟩
  have digested : (copy r.ending none r.pieces).digest? a = some (Hash.hexText (f.hash r.content)) := by
    rw [Copied.digest?, hf, Option.map_some, Hash.foldl_update, ← written]
    rfl
  rw [Copied.result, complete, digested, size] at h
  cases h
  exact ⟨⟨rfl, a, f, known, hf, rfl⟩, written⟩

theorem digestCopy_ok (h : (digestCopy name none r).outcome = .ok (n, digest)) : Describes name n digest r.content := by
  rw [digestCopy] at h
  split at h
  · cases h
  · rename_i a known
    exact (result_ok known h).1

end Digest

/-! ## Bytes at hand -/

namespace Device

theorem joined_piecesFrom (data : ByteArray) {size : Nat} (h : 0 < size) (pos : Nat) :
    joined ((ofContent data).piecesFrom size pos) = data.extract pos data.size ∧
      ∀ piece ∈ (ofContent data).piecesFrom size pos, piece.size ≠ 0 := by
  have width : (ofContent data).width size = size := by simp [Device.width, ofContent]
  have stop : (ofContent data).stop = data.size := by simp [Device.stop, ofContent]
  fun_induction piecesFrom (ofContent data) size pos with
  | case1 pos done =>
    rw [width, stop] at done
    refine ⟨?_, by simp⟩
    rw [joined, List.foldl_nil, eq_comm, ByteArray.extract_eq_empty_iff]
    omega
  | case2 pos more next ih =>
    rw [width, stop] at more
    have hnext : next = pos + min size (data.size - pos) := by
      rw [← width, ← stop]
    have below : next ≤ data.size := by omega
    refine ⟨?_, fun piece hp => ?_⟩
    · rw [joined_cons, ih.1]
      exact (ByteArray.extract_eq_extract_append_extract next (by omega) below).symm
    · rcases List.mem_cons.1 hp with rfl | hp
      · show (data.extract pos next).size ≠ 0
        rw [ByteArray.size_extract]
        omega
      · exact ih.2 piece hp

/-- **Reading bytes at hand gives these bytes.** -/
theorem content_reading (data : ByteArray) {size : Nat} (h : 0 < size) :
    ((ofContent data).reading size).content = data := by
  obtain ⟨whole, full⟩ := joined_piecesFrom data h 0
  have taken : ((ofContent data).reading size).taken = (ofContent data).piecesFrom size 0 := by
    rw [Reading.taken, reading, List.takeWhile_eq_self_iff]
    simpa using full
  rw [Reading.content, taken]
  exact whole.trans ByteArray.extract_zero_size

end Device

end Depot
