/-
Hash functions that take their input in blocks of a fixed size, whatever pieces it comes in.

A `BlockHash` says how one block changes the state and what the digest of a state and an unfinished block is. A
`Running` hash keeps the bytes of the unfinished block. It takes a block as soon as more than `reserve` bytes are
pending: one byte less than a block, or a whole block for a hash that treats the last block in its own way.

`update_update`: two pieces one after the other count as one piece, so the digest does not depend on the pieces.
-/

namespace Depot.Hash

structure BlockHash where
  State : Type
  start : State
  blockSize : Nat
  /-- whether a block that ends the input is left to `finish` -/
  keepsLast : Bool
  absorb : State → ByteArray → State
  finish : State → ByteArray → ByteArray
  blockSize_pos : 0 < blockSize

theorem size64_pos : 0 < 64 := by decide

theorem size128_pos : 0 < 128 := by decide

/-- the most bytes that may be pending -/
def BlockHash.reserve (h : BlockHash) : Nat :=
  if h.keepsLast then h.blockSize else h.blockSize - 1

/-- more bytes than may be pending are a block at least -/
theorem BlockHash.blockSize_le (h : BlockHash) : h.blockSize ≤ h.reserve + 1 := by
  unfold BlockHash.reserve
  split <;> omega

/-- a hash under way: the state after the blocks so far, and the bytes after them -/
structure Running (h : BlockHash) where
  state : h.State
  pending : ByteArray

/-- takes blocks while more bytes are pending than are reserved -/
def BlockHash.drain (h : BlockHash) (state : h.State) (bytes : ByteArray) : Running h :=
  if h.reserve < bytes.size then
    h.drain (h.absorb state (bytes.extract 0 h.blockSize)) (bytes.extract h.blockSize bytes.size)
  else ⟨state, bytes⟩
termination_by bytes.size
decreasing_by
  have := h.blockSize_pos
  have := h.blockSize_le
  simp only [ByteArray.size_extract]
  omega

/-- a hash of nothing yet -/
def BlockHash.begin (h : BlockHash) : Running h :=
  ⟨h.start, ByteArray.empty⟩

namespace Running

variable {h : BlockHash}

def update (r : Running h) (piece : ByteArray) : Running h :=
  h.drain r.state (r.pending ++ piece)

def digest (r : Running h) : ByteArray :=
  h.finish r.state r.pending

end Running

def BlockHash.hash (h : BlockHash) (content : ByteArray) : ByteArray :=
  (h.begin.update content).digest

theorem BlockHash.drain_append (h : BlockHash) (state : h.State) (a b : ByteArray) :
    h.drain state (a ++ b) = (h.drain state a).update b := by
  fun_induction BlockHash.drain h state a with
  | case1 state a more ih =>
    have h1 := h.blockSize_le
    rw [BlockHash.drain, if_pos (by simp only [ByteArray.size_append]; omega), ← ih]
    have head : (a ++ b).extract 0 h.blockSize = a.extract 0 h.blockSize := by
      ext1
      simp only [ByteArray.data_extract, ByteArray.data_append, Array.extract_append]
      simp
      omega
    have tail : (a ++ b).extract h.blockSize (a ++ b).size = a.extract h.blockSize a.size ++ b := by
      ext1
      simp only [ByteArray.data_extract, ByteArray.data_append, Array.extract_append, ByteArray.size_append]
      rw [show h.blockSize - a.data.size = 0 by simp; omega]
      congr 1
      · apply Array.ext
        · simp
        · simp
      · simp
    rw [head, tail]
  | case2 => rfl

theorem Running.update_update {h : BlockHash} (r : Running h) (a b : ByteArray) :
    (r.update a).update b = r.update (a ++ b) := by
  show (h.drain r.state (r.pending ++ a)).update b = h.drain r.state (r.pending ++ (a ++ b))
  rw [← BlockHash.drain_append, ByteArray.append_assoc]

end Depot.Hash
