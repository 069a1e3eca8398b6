/-
A bucket: objects by their keys, in the order of the keys' code points.

Listing goes page by page: a page holds the first keys after a given one, and says whether more follow.
-/

namespace Depot

/-- the texts kept with an object, by their names -/
abbrev Metadata := List (String × String)

/-- what is kept at a key -/
structure Object where
  content : ByteArray
  metadata : Metadata

/-- one page of a listing -/
structure Page where
  keys : List String
  more : Bool
  deriving DecidableEq

/-- objects by strictly ascending keys -/
structure Bucket where
  objects : List (String × Object)
  ascending : objects.Pairwise fun x y => x.1 < y.1

namespace Bucket

def empty : Bucket := ⟨[], List.Pairwise.nil⟩

instance : Inhabited Bucket := ⟨empty⟩

def get? (b : Bucket) (key : String) : Option Object :=
  b.objects.lookup key

/-- objects with one more in its place, or in the place of the one at its key -/
def insertInto (key : String) (o : Object) : List (String × Object) → List (String × Object)
  | [] => [(key, o)]
  | x :: rest =>
    if key < x.1 then (key, o) :: x :: rest
    else if key = x.1 then (key, o) :: rest
    else x :: insertInto key o rest

theorem mem_insertInto {key : String} {o : Object} {objects : List (String × Object)} {y : String × Object}
    (h : y ∈ insertInto key o objects) : y = (key, o) ∨ y ∈ objects := by
  induction objects with
  | nil => simpa [insertInto] using h
  | cons x rest ih =>
    simp only [insertInto] at h
    split at h
    · simpa using h
    · split at h
      · rcases List.mem_cons.1 h with h | h
        · exact .inl h
        · exact .inr (List.mem_cons_of_mem _ h)
      · rcases List.mem_cons.1 h with h | h
        · exact .inr (h ▸ List.mem_cons_self)
        · exact (ih h).imp id (List.mem_cons_of_mem _)

theorem insertInto_ascending (key : String) (o : Object) {objects : List (String × Object)}
    (h : objects.Pairwise fun x y => x.1 < y.1) : (insertInto key o objects).Pairwise fun x y => x.1 < y.1 := by
  induction objects with
  | nil => simp [insertInto]
  | cons x rest ih =>
    have hx := List.pairwise_cons.1 h
    simp only [insertInto]
    split
    case isTrue less =>
      refine List.pairwise_cons.2 ⟨fun y hy => ?_, h⟩
      rcases List.mem_cons.1 hy with rfl | hy
      · exact less
      · exact String.lt_trans less (hx.1 y hy)
    case isFalse notLess =>
      split
      case isTrue same => exact List.pairwise_cons.2 ⟨fun y hy => same ▸ hx.1 y hy, hx.2⟩
      case isFalse differ =>
        refine List.pairwise_cons.2 ⟨fun y hy => ?_, ih hx.2⟩
        rcases mem_insertInto hy with rfl | hy
        · refine String.not_le.1 fun le => differ ?_
          exact String.le_antisymm le (String.not_lt.1 notLess)
        · exact hx.1 y hy

def put (b : Bucket) (key : String) (o : Object) : Bucket :=
  ⟨insertInto key o b.objects, insertInto_ascending key o b.ascending⟩

def erase (b : Bucket) (keys : List String) : Bucket :=
  ⟨b.objects.filter fun x => !keys.contains x.1, b.ascending.filter _⟩

def keys (b : Bucket) : List String :=
  b.objects.map (·.1)

/-- the most keys on a page -/
def pageSize : Nat := 1000

def startsWith (start key : String) : Bool :=
  start.toList.isPrefixOf key.toList

/-- the keys that start with a text and come after a key -/
def listed (b : Bucket) (start : String) (after : Option String) : List String :=
  b.keys.filter fun k => startsWith start k && after.all (· < k)

def page (b : Bucket) (start : String) (after : Option String) : Page :=
  let found := b.listed start after
  ⟨found.take pageSize, pageSize < found.length⟩

end Bucket

end Depot
