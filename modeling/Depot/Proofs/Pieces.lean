/-
Passes over streams that come in pieces.

A stream gives pieces, none of them empty, until a read gives nothing (`Reading.EndsAfter`) or fails. A pass over it reads
each piece once and what comes after them once, so what it gives can be said without the pieces: it is what hashing the
whole content at once gives (`Digest.atOnce`), and its target holds the content (`digestCopy_pieces`). Where a read fails,
the target holds the pieces up to there and nothing else.
-/
import Depot.Proofs.Undigested

namespace Depot

variable {pieces : List ByteArray} {r : Reading} {ending : Ending} {how : Breakage} {name : String} {room : Option Nat}

/-! ## Streams in pieces -/

namespace Reading

/-- a stream gives pieces and then nothing: it is at its end, or a read gives no bytes whatever would come later -/
inductive EndsAfter (pieces : List ByteArray) : Reading → Prop
  | finished : EndsAfter pieces ⟨pieces, .finished⟩
  | paused (later : List ByteArray) (ending : Ending) : EndsAfter pieces ⟨pieces ++ ByteArray.empty :: later, ending⟩

theorem taken_of_full (full : ∀ p ∈ pieces, p.size ≠ 0) : taken ⟨pieces, ending⟩ = pieces := by
  rw [taken, List.takeWhile_eq_self_iff]
  simpa using full

theorem taken_of_paused (full : ∀ p ∈ pieces, p.size ≠ 0) (later : List ByteArray) :
    taken ⟨pieces ++ ByteArray.empty :: later, ending⟩ = pieces := by
  have all : ∀ p ∈ pieces, (p.size != 0) = true := by simpa using full
  rw [taken, List.takeWhile_append_of_pos all]
  simp

/-- up to its end a stream gives the pieces, and one read more gives nothing -/
theorem EndsAfter.gives (ends : EndsAfter pieces r) (full : ∀ p ∈ pieces, p.size ≠ 0) :
    r.content = joined pieces ∧ r.lengths = pieces.map (·.size) ++ [0] ∧ r.breakage? = none := by
  cases ends with
  | finished =>
    have taken : taken ⟨pieces, .finished⟩ = pieces := taken_of_full full
    refine ⟨?_, ?_, rfl⟩
    · rw [content, taken]
      rfl
    · rw [lengths, taken, if_pos (.inl rfl)]
  | paused later ending =>
    have taken : taken ⟨pieces ++ ByteArray.empty :: later, ending⟩ = pieces := taken_of_paused full later
    refine ⟨?_, ?_, ?_⟩
    · rw [content, taken]
      rfl
    · rw [lengths, taken, if_pos (.inr (by simp))]
    · unfold breakage?
      cases ending <;> simp

/-- up to a failing read a stream gives the pieces, and that read gives no length -/
theorem gives_broken (how : Breakage) (full : ∀ p ∈ pieces, p.size ≠ 0) :
    content ⟨pieces, .broke how⟩ = joined pieces ∧ lengths ⟨pieces, .broke how⟩ = pieces.map (·.size) ∧
      breakage? ⟨pieces, .broke how⟩ = some (.stream how) := by
  have taken : taken ⟨pieces, .broke how⟩ = pieces := taken_of_full full
  refine ⟨?_, ?_, ?_⟩
  · rw [content, taken]
    rfl
  · rw [lengths, taken, if_neg (by simp), List.append_nil]
  · have all : pieces.all (·.size != 0) = true := by
      rw [List.all_eq_true]
      simpa using full
    exact if_pos all

theorem lengths_of_empty {piece : ByteArray} (empty : piece.size = 0) : lengths ⟨piece :: pieces, ending⟩ = [0] := by
  simp [lengths, taken, empty]

theorem lengths_cons {piece : ByteArray} (nonempty : piece.size ≠ 0) :
    lengths ⟨piece :: pieces, ending⟩ = piece.size :: lengths ⟨pieces, ending⟩ := by
  simp [lengths, taken_cons nonempty]

end Reading

/-! ## Passes over them -/

namespace Digest

/-- size and digest of a content that is hashed at once; an algorithm without digests of one length gives none -/
def atOnce (a : Hash.Algorithm) (content : ByteArray) : Except Failure (Nat × String) :=
  match a.function? with
  | some f => .ok (content.size, Hash.hexText (f.hash content))
  | none => .error (.fault .openEndedDigest)

/-- a copy for which there is room makes the reads that a reader makes -/
theorem copy_reads (fits : Reading.Fits ⟨pieces, ending⟩ room) :
    (copy ending room pieces).reads = Reading.lengths ⟨pieces, ending⟩ := by
  induction pieces generalizing room with
  | nil => cases ending <;> rfl
  | cons piece pieces ih =>
    unfold copy
    by_cases empty : piece.size = 0
    · rw [if_pos empty, Reading.lengths_of_empty empty]
    · obtain ⟨enough, later⟩ := (Reading.fits_cons empty).1 fits
      rw [if_neg empty, enough, if_neg Bool.false_ne_true, Reading.lengths_cons empty, ← ih later]

/-- **A pass for whose content there is room** reads the stream to its end, and its target holds the content. -/
theorem digestCopy_of_fits {a : Hash.Algorithm} (known : algorithmOf name = .ok a) (fits : r.Fits room) :
    digestCopy name room r = ⟨(copy r.ending room r.pieces).result name a, r.lengths, r.content⟩ := by
  have written : (copy r.ending room r.pieces).written = r.content := by
    rw [Copied.written, (copy_of_fits fits).1]
    rfl
  unfold digestCopy
  rw [known]
  dsimp only
  rw [copy_reads fits, written]

/-- **A pass does not depend on the pieces of its stream.** For every algorithm that is known, every target with room for
the content and all pieces that are not empty, of whatever sizes and however many:
- over a stream that ends after the pieces, a pass gives what hashing their bytes at once gives, which is their number and
their digest for each algorithm with digests of one length, and its target holds these bytes;
- over a stream that the system breaks after the pieces, it reports that the content cannot be digested, and its target
holds the bytes of the pieces before.
Either way each piece is read once; where the stream ends, one read more gives nothing. -/
theorem digestCopy_pieces {a : Hash.Algorithm} (known : algorithmOf name = .ok a) (full : ∀ p ∈ pieces, p.size ≠ 0)
    (fits : ∀ n ∈ room, (joined pieces).size ≤ n) :
    (∀ r, Reading.EndsAfter pieces r →
      digestCopy name room r = ⟨atOnce a (joined pieces), pieces.map (·.size) ++ [0], joined pieces⟩) ∧
    ∀ how : Breakage, how.isSystem = true →
      digestCopy name room ⟨pieces, .broke how⟩ =
        ⟨.error (.digest (.unreadable name) (.stream how)), pieces.map (·.size), joined pieces⟩ := by
  constructor
  · intro r ends
    obtain ⟨content, lengths, whole⟩ := ends.gives full
    have fits : r.Fits room := by
      rw [Reading.Fits, content]
      exact fits
    rw [digestCopy_of_fits known fits, result_of_whole fits whole, lengths, content]
    rfl
  · intro how system
    obtain ⟨content, lengths, broke⟩ := Reading.gives_broken how full
    have fits : Reading.Fits ⟨pieces, .broke how⟩ room := by
      rw [Reading.Fits, content]
      exact fits
    have reported : (Fault.stream how).isSystemFault = true := system
    rw [digestCopy_of_fits known fits, result_of_broken fits broke, if_pos reported, lengths, content]

/-- three bytes in two pieces -/
def abThenC : List ByteArray := [⟨#[97, 98]⟩, ⟨#[99]⟩]

theorem digestCopy_pieces_abThenC :
    (algorithmOf "SHA1" = .ok .sha1 ∧ (∀ p ∈ abThenC, p.size ≠ 0) ∧ ∀ n ∈ some 3, (joined abThenC).size ≤ n) ∧
    digestCopy "SHA1" (some 3) ⟨abThenC, .finished⟩ =
      ⟨.ok (3, "a9993e364706816aba3e25717850c26c9cd0d89d"), [2, 1, 0], ⟨#[97, 98, 99]⟩⟩ ∧
    digestCopy "SHA1" (some 3) ⟨abThenC, .broke .timeout⟩ =
      ⟨.error (.digest (.unreadable "SHA1") (.stream .timeout)), [2, 1], ⟨#[97, 98, 99]⟩⟩ := by
  have known : algorithmOf "SHA1" = .ok .sha1 := by decide
  have full : ∀ p ∈ abThenC, p.size ≠ 0 := by decide
  have fits : ∀ n ∈ some 3, (joined abThenC).size ≤ n := by decide +kernel
  have content : joined abThenC = ⟨#[97, 98, 99]⟩ := by decide +kernel
  have digest : atOnce .sha1 ⟨#[97, 98, 99]⟩ = .ok (3, "a9993e364706816aba3e25717850c26c9cd0d89d") := by decide +kernel
  obtain ⟨whole, broken⟩ := digestCopy_pieces known full fits
  refine ⟨⟨known, full, fits⟩, ?_, ?_⟩
  · rw [whole _ .finished, content, digest]
    rfl
  · rw [broken .timeout rfl, content]
    rfl

end Digest

end Depot
