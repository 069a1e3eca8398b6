/-
How much texts resemble each other.

What two texts share is counted in blocks: their longest common block, and then in the same way the blocks shared by
what stands before it in both, and by what stands after it in both. Of blocks with one length the first counts. Texts
resemble each other if at least six tenths of the characters of both stand in shared blocks.
-/

namespace Depot.Text.Resemblance

/-- a row of characters that stands in two texts: its place in either, and its length -/
structure Block where
  left : Nat
  right : Nat
  length : Nat
  deriving DecidableEq, Repr

/-- how many characters two texts have in common at their starts -/
def sharedStart : List Char → List Char → Nat
  | a :: as, b :: bs => if a = b then sharedStart as bs + 1 else 0
  | _, _ => 0

/-- what is left of a text from each of its places, counted from `place` -/
def rests (place : Nat) : List Char → List (Nat × List Char)
  | [] => []
  | c :: cs => (place, c :: cs) :: rests (place + 1) cs

/-- the blocks that two texts share from each pair of places on -/
def blocks (a b : List Char) : List Block :=
  (rests 0 a).flatMap fun (i, s) => (rests 0 b).map fun (j, t) => ⟨i, j, sharedStart s t⟩

def longest (a b : List Char) : Block :=
  (blocks a b).foldl (fun x y => if x.length < y.length then y else x) ⟨0, 0, 0⟩

/-- how many characters two texts share; a block of some length leaves less of the first text on either side -/
def shared (a b : List Char) : Nat :=
  match longest a b with
  | ⟨i, j, length⟩ =>
    if _h : 0 < length ∧ i < a.length then
      shared (a.take i) (b.take j) + length + shared (a.drop (i + length)) (b.drop (j + length))
    else 0
termination_by a.length
decreasing_by
  · rw [List.length_take]; omega
  · rw [List.length_drop]; omega

/-- a text with what it shares with another, and the length of both together -/
structure Match where
  text : String
  shared : Nat
  total : Nat
  deriving DecidableEq, Repr

/-- what a text shares with a word -/
def toWord (word text : String) : Match :=
  ⟨text, shared text.toList word.toList, text.length + word.length⟩

namespace Match

def isClose (m : Match) : Bool :=
  3 * m.total ≤ 10 * m.shared

/-- the match with the larger share; of equal ones the one whose text comes later -/
def better (x y : Match) : Match :=
  let left := x.shared * y.total
  let right := y.shared * x.total
  if left < right || (left == right && x.text < y.text) then y else x

end Match

/-- the text that resembles a word most, if one resembles it -/
def closest? (word : String) (texts : List String) : Option String :=
  match (texts.map (toWord word)).filter (·.isClose) with
  | [] => none
  | m :: rest => some (rest.foldl Match.better m).text

end Depot.Text.Resemblance
