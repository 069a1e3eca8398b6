/-
Rows of file metadata, and the questions that are put to them.
-/
import Depot.Time.Timestamp

namespace Depot

structure Entry where
  id : String
  space : String
  namespace_ : Option String
  /-- the name given by the uploader -/
  name : String
  /-- the size of the content in bytes -/
  size : Int
  /-- the hexadecimal digest of the content -/
  digest : String
  /-- the name of the digest's algorithm -/
  algorithm : String
  modified : Time.Timestamp
  deriving DecidableEq

namespace Entry

def text (e : Entry) : String :=
  e.space ++ ":" ++ e.id ++ " (" ++ e.name ++ ")"

/-- an entry among expired records -/
def description (e : Entry) : String :=
  "file " ++ e.id ++ " in space " ++ e.space

end Entry

/-- a question to the rows of files -/
inductive FileQuery where
  | all
  | file (space id : String)
  | inNamespace (space : String) (namespace_ : Option String)
  | inSpaces (spaces : List String)
  | before (cutoff : Time.Timestamp)
  | withIds (ids : List String)
  deriving DecidableEq

namespace FileQuery

def holds : FileQuery → Entry → Bool
  | .all, _ => true
  | .file space id, e => e.space == space && e.id == id
  | .inNamespace space ns, e => e.space == space && e.namespace_ == ns
  | .inSpaces spaces, e => spaces.contains e.space
  | .before cutoff, e => decide (e.modified.instant < cutoff.instant)
  | .withIds ids, e => ids.contains e.id

/-- whether a question can have no answer whatever the rows are, so that it need not be put -/
def isEmpty : FileQuery → Bool
  | .inSpaces spaces => spaces.isEmpty
  | .withIds ids => ids.isEmpty
  | _ => false

end FileQuery

/-- rows from the one with the earliest time, in their old order where times are equal -/
def oldestFirst {α : Type} (time : α → Time.Timestamp) (rows : List α) : List α :=
  ((rows.map fun r => ((time r).instant, r)).mergeSort fun a b => a.1 ≤ b.1).map (·.2)

/-- rows of files in the order of their insertion, no two with one id -/
structure FileTable where
  rows : List Entry
  distinct : (rows.map (·.id)).Nodup
  deriving DecidableEq

namespace FileTable

def empty : FileTable := ⟨[], List.nodup_nil⟩

instance : Inhabited FileTable := ⟨empty⟩

def select (t : FileTable) (q : FileQuery) : List Entry :=
  t.rows.filter q.holds

/-- the table with one more row, unless a row has its id -/
def insert? (t : FileTable) (e : Entry) : Option FileTable :=
  if h : e.id ∈ t.rows.map (·.id) then none
  else some ⟨t.rows ++ [e], by
    rw [List.map_append, List.nodup_append]
    refine ⟨t.distinct, by simp, fun x hx y hy => ?_⟩
    rw [List.map_singleton, List.mem_singleton] at hy
    exact fun same => h (hy ▸ same ▸ hx)⟩

def remove (t : FileTable) (q : FileQuery) : FileTable :=
  ⟨t.rows.filter fun e => !q.holds e, t.distinct.sublist (List.filter_sublist.map _)⟩

/-- the table with another time in the row of an id -/
def retime (t : FileTable) (id : String) (modified : Time.Timestamp) : FileTable :=
  ⟨t.rows.map fun e => if e.id = id then { e with modified := modified } else e, by
    rw [List.map_map]
    refine (List.map_congr_left fun e _ => ?_).symm ▸ t.distinct
    simp only [Function.comp_apply]
    split <;> rfl⟩

end FileTable

end Depot
