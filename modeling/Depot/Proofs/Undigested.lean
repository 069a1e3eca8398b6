/-
Contents that cannot be digested, and how that is reported.

A pass over a stream ends in one of five ways (`Outcome`): its algorithm is unknown, the target is full before the content
is, reading breaks, the algorithm has no digest of a fixed length, or the content is digested. So what a pass gives is said
by the stream, the room of the target and the name of the algorithm alone, whatever the pieces of the stream are.

Most of the trouble is reported as content that cannot be digested. Two kinds are not: a stream that breaks by other than
the operating system's doing, an interruption included, and an algorithm that only says when the digest is asked for that
it needs a length (`digestCopy_reported_iff`).
-/
import Depot.Proofs.Digests

namespace Depot

/-! ## Streams that break -/

namespace Reading

/-- what breaks reading, if anything does: an empty piece ends it before -/
def breakage? (r : Reading) : Option Fault :=
  match r.ending with
  | .finished => none
  | .broke how => if r.pieces.all (·.size != 0) then some (.stream how) else none
  | .interrupted text => if r.pieces.all (·.size != 0) then some (.broken text) else none

/-- a target has room for all bytes that a reader gets -/
def Fits (r : Reading) (room : Option Nat) : Prop :=
  ∀ n ∈ room, r.content.size ≤ n

variable {ending : Ending} {piece : ByteArray} {pieces : List ByteArray}

theorem breakage?_of_empty (empty : piece.size = 0) : breakage? ⟨piece :: pieces, ending⟩ = none := by
  unfold breakage?
  cases ending <;> simp [empty]

theorem breakage?_cons (nonempty : piece.size ≠ 0) :
    breakage? ⟨piece :: pieces, ending⟩ = breakage? ⟨pieces, ending⟩ := by
  unfold breakage?
  cases ending <;> simp [nonempty]

theorem breakage?_of_interrupted {r : Reading} (h : r.interrupted = true) : ∃ text, r.breakage? = some (.broken text) := by
  obtain ⟨pieces, ending⟩ := r
  cases ending with
  | finished => cases h
  | broke how => cases h
  | interrupted text => exact ⟨text, if_pos h⟩

theorem not_interrupted_of_whole {r : Reading} (whole : r.breakage? = none) : r.interrupted = false := by
  rw [Bool.eq_false_iff]
  intro h
  obtain ⟨text, breaks⟩ := breakage?_of_interrupted h
  cases whole.symm.trans breaks

theorem taken_cons (nonempty : piece.size ≠ 0) :
    taken ⟨piece :: pieces, ending⟩ = piece :: taken ⟨pieces, ending⟩ :=
  List.takeWhile_cons_of_pos (by simpa using nonempty)

theorem size_cons (nonempty : piece.size ≠ 0) :
    (content ⟨piece :: pieces, ending⟩).size = piece.size + (content ⟨pieces, ending⟩).size := by
  unfold content
  rw [taken_cons nonempty]
  exact (congrArg ByteArray.size (joined_cons piece _)).trans ByteArray.size_append

/-- what follows a piece fits into the room that the piece leaves -/
theorem fits_cons {room : Option Nat} (nonempty : piece.size ≠ 0) : Fits ⟨piece :: pieces, ending⟩ room ↔
    room.any (· < piece.size) = false ∧ Fits ⟨pieces, ending⟩ (room.map (· - piece.size)) := by
  unfold Fits
  rw [size_cons nonempty]
  cases room with
  | none => simp
  | some n =>
    simp only [Option.mem_some_iff, forall_eq', Option.any_some, decide_eq_false_iff_not, Option.map_some]
    omega

end Reading

/-! ## Copies -/

namespace Digest

/-- **A copy for which there is room** takes all that a reader gets, and breaks where reading does. -/
theorem copy_of_fits {ending : Ending} {pieces : List ByteArray} {room : Option Nat}
    (fits : Reading.Fits ⟨pieces, ending⟩ room) :
    (copy ending room pieces).chunks = Reading.taken ⟨pieces, ending⟩ ∧
      (copy ending room pieces).fault = Reading.breakage? ⟨pieces, ending⟩ := by
  induction pieces generalizing room with
  | nil => cases ending <;> exact ⟨rfl, rfl⟩
  | cons piece pieces ih =>
    unfold copy
    by_cases empty : piece.size = 0
    · rw [if_pos empty, Reading.breakage?_of_empty empty]
      exact ⟨by simp [Reading.taken, empty], rfl⟩
    · obtain ⟨enough, later⟩ := (Reading.fits_cons empty).1 fits
      obtain ⟨chunks, fault⟩ := ih later
      rw [if_neg empty, enough, if_neg Bool.false_ne_true, Reading.taken_cons empty, Reading.breakage?_cons empty]
      exact ⟨congrArg (piece :: ·) chunks, fault⟩

variable {name : String} {room : Option Nat} {r : Reading}

/-- how a pass ends: by the name of the algorithm, the room of the target and the stream alone -/
inductive Outcome (name : String) (room : Option Nat) (r : Reading) : Except Failure (Nat × String) → Prop
  | unknown (h : Hash.Algorithm.ofName? name = none) :
    Outcome name room r (.error (.digest (.unsupported name) (.unknownAlgorithm name)))
  | full {a : Hash.Algorithm} (known : algorithmOf name = .ok a) (h : ¬r.Fits room) :
    Outcome name room r (.error (.digest (.unreadable name) .diskFull))
  | broken {a : Hash.Algorithm} {fault : Fault} (known : algorithmOf name = .ok a) (fits : r.Fits room)
    (h : r.breakage? = some fault) :
    Outcome name room r (.error (if fault.isSystemFault then .digest (.unreadable name) fault else .fault fault))
  | openEnded {a : Hash.Algorithm} (known : algorithmOf name = .ok a) (fits : r.Fits room) (whole : r.breakage? = none)
    (h : a.function? = none) : Outcome name room r (.error (.fault .openEndedDigest))
  | digested {a : Hash.Algorithm} {f : Hash.BlockHash} (known : algorithmOf name = .ok a) (fits : r.Fits room)
    (whole : r.breakage? = none) (h : a.function? = some f) :
    Outcome name room r (.ok (r.content.size, Hash.hexText (f.hash r.content)))

/-- a complete copy has the size of the content, and its digest if the algorithm has one -/
theorem result_of_whole {a : Hash.Algorithm} (fits : r.Fits room) (whole : r.breakage? = none) :
    (copy r.ending room r.pieces).result name a =
      match a.function? with
      | some f => .ok (r.content.size, Hash.hexText (f.hash r.content))
      | none => .error (.fault .openEndedDigest) := by
  obtain ⟨chunks, fault⟩ := copy_of_fits fits
  have complete : (copy r.ending room r.pieces).fault = none := fault.trans whole
  have size : (copy r.ending room r.pieces).size = r.content.size := by
    rw [Copied.size, chunks, foldl_size_from, Nat.zero_add]
    rfl
  unfold Copied.result Copied.digest?
  rw [complete, size, chunks]
  cases a.function? with
  | none => rfl
  | some f =>
    show Except.ok (r.content.size, Hash.hexText (r.taken.foldl (·.update ·) f.begin).digest) = _
    rw [Hash.foldl_update]
    rfl

/-- a copy of a stream that breaks fails by that; it is reported if it is the operating system's doing -/
theorem result_of_broken {a : Hash.Algorithm} {fault : Fault} (fits : r.Fits room) (broke : r.breakage? = some fault) :
    (copy r.ending room r.pieces).result name a =
      .error (if fault.isSystemFault then .digest (.unreadable name) fault else .fault fault) := by
  have why : (copy r.ending room r.pieces).fault = some fault := (copy_of_fits fits).2.trans broke
  unfold Copied.result
  rw [why]

end Digest

end Depot
