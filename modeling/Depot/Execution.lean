/-
Records of executions that were kept after they ended.

An execution that was started by another names it as its parent and goes away with it: `levels` gives the rows of a
tree, the row itself, its children, their children, and so on, each row once.

The id of an execution is a number below 2^128, written as 32 hexadecimal digits in small letters with hyphens
(`idText`). A text means an id (`idOfText`) if 32 characters are left of it without the marks `urn:` and `uuid:`, the
braces at its ends and its hyphens, and these are a hexadecimal number in any of its spellings.
-/
import Depot.Failure

namespace Depot

structure Execution where
  id : String
  parent : Option String
  /-- the key of the definition that was executed -/
  definition : String
  space : String
  startedAt : Time.Timestamp
  /-- none while it is still running -/
  endedAt : Option Time.Timestamp
  deriving DecidableEq

namespace Execution

def text (e : Execution) : String :=
  e.definition ++ ":" ++ e.id

/-- an execution among expired records -/
def description (e : Execution) : String :=
  "historic execution " ++ e.id

/-- finished, not started by another, and started before a cutoff -/
def isExpired (cutoff : Time.Timestamp) (e : Execution) : Bool :=
  e.parent.isNone && e.endedAt.isSome && decide (e.startedAt.instant < cutoff.instant)

/-- the ids of the executions started by given ones -/
def childrenOf (rows : List Execution) (ids : List String) : List String :=
  (rows.filter fun e => e.parent.any ids.contains).map (·.id)

/-- the ids of a tree level by level after those seen before, `depth` levels at most -/
def levels (rows : List Execution) : Nat → List String → List String → List (List String)
  | 0, _, _ => []
  | depth + 1, seen, ids =>
    if ids.isEmpty then []
    else
      let seen := seen ++ ids
      ids :: levels rows depth seen ((childrenOf rows ids).filter fun id => !seen.contains id)

/-- the levels of the tree below an execution; no tree has more levels than there are rows -/
def treeLevels (rows : List Execution) (id : String) : List (List String) :=
  levels rows rows.length [] [id]

/-! ## Ids -/

def idLength : Nat := 32

def withoutHyphens (cs : List Char) : List Char :=
  cs.filter (· != '-')

/-- what is left of a text that means an id without its marks, its braces and its hyphens -/
def idDigits (text : String) : List Char :=
  let isBrace (c : Char) : Bool := c == '\x7b' || c == '\x7d'
  withoutHyphens (Text.Blank.trim isBrace ((text.replace "urn:" "").replace "uuid:" "").toList)

/-- the written form of an id: its digits, small letters among them, in groups of 8, 4, 4, 4 and 12 -/
def idText (n : Nat) : String :=
  let digits := (Nat.toDigits 16 n).leftpad idLength '0'
  let group (start count : Nat) : List Char := (digits.drop start).take count
  String.ofList (group 0 8 ++ '-' :: group 8 4 ++ '-' :: group 12 4 ++ '-' :: group 16 4 ++ '-' :: group 20 12)

/-- the id that a text means, in its written form -/
def idOfText (text : String) : Except Fault String :=
  let digits := idDigits text
  match Text.Numeral.read? .hexadecimal (String.ofList digits) with
  | .ok (.ofNat n) => if digits.length = idLength then .ok (idText n) else .error (.notAnId (String.ofList digits))
  | _ => .error (.notAnId (String.ofList digits))

/-- whether two ids differ at most in their hyphens -/
def sameId (a b : String) : Bool :=
  withoutHyphens a.toList == withoutHyphens b.toList

end Execution

/-- executions in the order of their insertion, no two with one id -/
structure ExecutionTable where
  rows : List Execution
  distinct : (rows.map (·.id)).Nodup
  deriving DecidableEq

namespace ExecutionTable

def empty : ExecutionTable := ⟨[], List.nodup_nil⟩

instance : Inhabited ExecutionTable := ⟨empty⟩

def expired (t : ExecutionTable) (cutoff : Time.Timestamp) : List Execution :=
  t.rows.filter (·.isExpired cutoff)

/-- the table with one more row, unless a row has its id -/
def insert? (t : ExecutionTable) (e : Execution) : Option ExecutionTable :=
  if h : e.id ∈ t.rows.map (·.id) then none
  else some ⟨t.rows ++ [e], by
    rw [List.map_append, List.nodup_append]
    refine ⟨t.distinct, by simp, fun x hx y hy => ?_⟩
    rw [List.map_singleton, List.mem_singleton] at hy
    exact fun same => h (hy ▸ same ▸ hx)⟩

def remove (t : ExecutionTable) (ids : List String) : ExecutionTable :=
  ⟨t.rows.filter fun e => !ids.contains e.id, t.distinct.sublist (List.filter_sublist.map _)⟩

end ExecutionTable

end Depot
