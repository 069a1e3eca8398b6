/-
What is written to a temporary file is what is read from it.

The path of a temporary file goes down name by name (`Straight`), so it leads to the place with its own names whatever
stands there (`find_straight`). A folder that is emptied meanwhile takes the file along, but never changes it.
-/
import Mathlib.Tactic
import Depot.Disk.Basic

namespace Depot.Disk

/-! ## Paths that go down -/

/-- names each of which goes one further down -/
def Straight (place : List Name) : Prop :=
  ∀ before n, before ++ [n] <+: place → Path.step before n = before ++ [n]

theorem Straight.of_prefix {place upper : List Name} (h : Straight place) (cut : upper <+: place) : Straight upper :=
  fun before n hn => h before n (hn.trans cut)

theorem straight_snoc {place : List Name} {n : Name} (h : Straight place) (hn : Path.step place n = place ++ [n]) :
    Straight (place ++ [n]) := by
  intro before m hm
  rcases List.prefix_concat_iff.1 hm with same | upper
  · obtain ⟨rfl, last⟩ := List.append_inj' same rfl
    obtain rfl := List.singleton_inj.1 last
    exact hn
  · exact h before m upper

theorem straight_step {place : List Name} (h : Straight place) (n : Name) : Straight (Path.step place n) := by
  rw [Path.step]
  split
  case isTrue => exact h.of_prefix (List.dropLast_prefix place)
  case isFalse down =>
    refine straight_snoc h ?_
    rw [Path.step, if_neg down]

theorem straight_foldl (names : List Name) {place : List Name} (h : Straight place) :
    Straight (names.foldl Path.step place) := by
  induction names generalizing place with
  | nil => exact h
  | cons n names ih => exact ih (straight_step h n)

theorem straight_nil : Straight [] := by
  intro before n h
  simp at h

theorem straight_temporary (folder : Path) (serial : Nat) : Straight (folder.normal.child (.temporary serial)).names := by
  refine straight_snoc (straight_foldl folder.names straight_nil) ?_
  rw [Path.step, if_neg]
  simp [Name.parent]

theorem not_above_temporary (folder : Path) (serial : Nat) :
    Path.isAbove (folder.normal.child (.temporary serial)).names = false := by
  simp [Path.isAbove, Path.child, Name.parent]

/-! ## What stands at a place -/

variable {d d' : Disk} {place q : List Name} {x : Option Node} {node : Node}

theorem lookup_filter {p : List Name → Bool} (nodes : List (List Name × Node)) (q : List Name) :
    (nodes.filter fun n => p n.1).lookup q = if p q then nodes.lookup q else none := by
  induction nodes with
  | nil => simp
  | cons n nodes ih =>
    rw [List.filter_cons]
    by_cases here : q = n.1
    · subst here
      have self : (n.1 == n.1) = true := by simp
      cases hp : p n.1
      · rw [if_neg (by simp), ih, hp]
        rfl
      · rw [if_pos rfl, List.lookup_cons, List.lookup_cons, self, if_pos rfl]
    · have differ : (q == n.1) = false := by simpa using here
      cases hp : p n.1
      · rw [if_neg (by simp), ih, List.lookup_cons, differ]
      · rw [if_pos rfl, List.lookup_cons, List.lookup_cons, differ, ih]

theorem at?_put_self (node : Node) (h : Path.isAbove place = false) : (d.put place node).at? place = some node := by
  rw [at?, if_neg (by simp [h]), put, List.lookup_append, lookup_filter (p := fun q => decide (q ≠ place))]
  simp

theorem at?_put_of_ne (node : Node) (h : q ≠ place) : (d.put place node).at? q = d.at? q := by
  have differ : (q == place) = false := by simpa using h
  have alone : List.lookup q [(place, node)] = none := by rw [List.lookup_cons, differ, List.lookup_nil]
  rw [at?, at?, put, List.lookup_append, lookup_filter (p := fun q => decide (q ≠ place)), alone, Option.or_none]
  simp [h]

theorem at?_clear {folder : Path} (h : (d.clear folder).at? q = some node) : d.at? q = some node := by
  rw [at?] at h ⊢
  split
  case isTrue above => rwa [if_pos above] at h
  case isFalse below =>
    rw [if_neg below, clear, lookup_filter (p := fun q => !(folder.names.isPrefixOf q && q != folder.names))] at h
    split at h
    · exact h
    · cases h

theorem follow_straight (folder : List Name) {names : List Name} (h : Straight (folder ++ names))
    (found : d.follow folder names = .ok (q, x)) :
    q = folder ++ names ∧ x = d.at? (folder ++ names) := by
  induction names generalizing folder with
  | nil =>
    rw [follow] at found
    cases found
    simp
  | cons n names ih =>
    have down : Path.step folder n = folder ++ [n] := h folder n ⟨names, by simp⟩
    rw [follow] at found
    split at found
    · cases found
    · cases found
    · split at found
      · cases found
      · rw [down] at found
        simpa using ih (folder ++ [n]) (by simpa using h) found

/-- names that go down lead there also when something else stands there -/
theorem follow_congr (folder : List Name) {names : List Name} (h : Straight (folder ++ names))
    (found : d.follow folder names = .ok (q, x))
    (same : ∀ p, p ≠ folder ++ names → d'.at? p = d.at? p) :
    d'.follow folder names = .ok (folder ++ names, d'.at? (folder ++ names)) := by
  induction names generalizing folder with
  | nil => rw [follow, List.append_nil]
  | cons n names ih =>
    have down : Path.step folder n = folder ++ [n] := h folder n ⟨names, by simp⟩
    rw [follow] at found ⊢
    rw [same folder (by simp)]
    split at found
    · cases found
    · cases found
    · split at found
      · cases found
      · rename_i short
        rw [down] at found ⊢
        simp only [if_neg short]
        have shape : folder ++ n :: names = folder ++ [n] ++ names := by simp
        rw [shape] at h same ⊢
        exact ih _ h found same

variable {p : Path}

theorem find_ok (h : d.find p = .ok (q, x)) : check p = .ok () ∧ d.follow [] p.names = .ok (q, x) := by
  rw [find] at h
  cases hc : check p with
  | error e => rw [hc] at h; cases h
  | ok u => rw [hc] at h; exact ⟨rfl, h⟩

theorem find_of_follow (h : check p = .ok ()) : d.find p = d.follow [] p.names := by
  rw [find, h]
  rfl

theorem follow_error {folder names : List Name} {trouble : Trouble} (h : d.follow folder names = .error trouble) :
    trouble ≠ .nullInPath := by
  induction names generalizing folder with
  | nil => cases h
  | cons n rest ih =>
    rw [follow] at h
    split at h
    · cases h
      decide
    · cases h
      decide
    · split at h
      · cases h
        decide
      · exact ih h

theorem remove_error {trouble : Trouble} (checked : check p = .ok ()) (h : d.remove p = .error trouble) :
    trouble ≠ .nullInPath := by
  rw [remove, find_of_follow checked] at h
  split at h
  · cases h
  · rename_i followed
    cases h
    exact follow_error followed
  · cases h
  · cases h
    decide
  · cases h

theorem find_straight (h : Straight p.names) (found : d.find p = .ok (q, x)) : q = p.names ∧ x = d.at? p.names := by
  simpa using follow_straight [] h (find_ok found).2

theorem find_congr (h : Straight p.names) (found : d.find p = .ok (q, x)) (same : ∀ r, r ≠ p.names → d'.at? r = d.at? r) :
    d'.find p = .ok (p.names, d'.at? p.names) := by
  obtain ⟨checked, followed⟩ := find_ok found
  rw [find_of_follow checked]
  simpa using follow_congr [] h followed same

theorem find_serial (h : Straight p.names) (found : d.find p = .ok (q, x)) (n : Nat) :
    ({ d with serial := n } : Disk).find p = .ok (p.names, d.at? p.names) :=
  find_congr h found fun _ _ => rfl

/-! ## Temporary files -/

theorem read_put (h : Straight p.names) (above : Path.isAbove p.names = false) (found : d.find p = .ok (q, x))
    (content : ByteArray) : (d.put p.names (.file content)).find p = .ok (p.names, some (.file content)) := by
  rw [find_congr h found fun r hr => at?_put_of_ne _ hr, at?_put_self _ above]

theorem find_temporary {folder : Path} (made : d.createTemporary folder = .ok (p, d')) :
    p = folder.normal.child (.temporary d.serial) ∧
      d' = { d.put p.names (.file ByteArray.empty) with serial := d.serial + 1 } ∧
      d'.find p = .ok (p.names, some (.file ByteArray.empty)) := by
  rw [createTemporary] at made
  split at made
  · cases made
  · rename_i place node found
    cases made
    have straight := straight_temporary folder d.serial
    obtain ⟨rfl, -⟩ := find_straight straight found
    have new := read_put straight (not_above_temporary folder d.serial) found ByteArray.empty
    refine ⟨rfl, rfl, ?_⟩
    exact (find_serial straight new _).trans (congrArg (fun x => Except.ok (_, x)) (find_straight straight new).2.symm)

/-- **What is written to a new temporary file is read from it.** -/
theorem read_temporary {folder : Path} (made : d.createTemporary folder = .ok (p, d')) (content : ByteArray) :
    (d'.write p content).find p = .ok (p.names, some (.file content)) ∧ Straight p.names := by
  obtain ⟨rfl, -, there⟩ := find_temporary made
  have straight := straight_temporary folder d.serial
  refine ⟨?_, straight⟩
  rw [write, there]
  exact read_put straight (not_above_temporary folder d.serial) there content

theorem read_of_find (h : d.find p = .ok (q, some (.file content))) : d.read p = .ok content := by
  rw [read, h]

theorem read_clear (straight : Straight p.names) {content other : ByteArray}
    (h : d.find p = .ok (p.names, some (.file content))) {folder : Path} (read : (d.clear folder).read p = .ok other) :
    other = content := by
  rw [Disk.read] at read
  split at read
  · cases read
  · cases read
  · cases read
  · rename_i place found
    cases read
    have there := at?_clear (find_straight straight found).2.symm
    have before := (find_straight straight h).2
    rw [there] at before
    cases before
    rfl

end Depot.Disk
