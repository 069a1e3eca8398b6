/-
Trees of executions, and what their deletion leaves.

What is below an execution is reached from its id by going from parents to children (`Below`). A deletion looks for it
level by level, each id once, so it comes to an end by the number of rows, and finds all of it and nothing else
(`mem_treeLevels`), whatever the parents in the table are. What is left after the trees of several executions were
deleted one after another is what was below none of them at the start (`Felled.remove`).
-/
import Mathlib.Tactic
import Depot.Execution

namespace Depot

namespace Execution

open Relation (ReflTransGen)

variable {rows : List Execution} {ids seen : List String} {root id : String}

/-- the execution with one id was started by the one with another -/
def Started (rows : List Execution) (parent id : String) : Prop :=
  ∃ e ∈ rows, e.id = id ∧ e.parent = some parent

/-- an id belongs to the tree of another one -/
abbrev Below (rows : List Execution) : String → String → Prop :=
  ReflTransGen (Started rows)

/-- an execution that no other one started, with a tree to which an execution belongs -/
structure IsRootOf (rows : List Execution) (root e : Execution) : Prop where
  row : root ∈ rows
  top : root.parent = none
  below : Below rows root.id e.id

theorem Started.mono {rows' : List Execution} (sub : rows' ⊆ rows) (h : Started rows' root id) : Started rows root id := by
  obtain ⟨e, he, same, parent⟩ := h
  exact ⟨e, sub he, same, parent⟩

theorem Below.mono {rows' : List Execution} (sub : rows' ⊆ rows) (h : Below rows' root id) : Below rows root id :=
  h.lift (fun x => x) fun _ _ => Started.mono sub

theorem Below.row (h : Below rows root id) (there : ∃ e ∈ rows, e.id = root) : ∃ e ∈ rows, e.id = id := by
  rcases h.cases_tail with rfl | ⟨_, -, f, hf, same, -⟩
  · exact there
  · exact ⟨f, hf, same⟩

/-- an execution that no other one started belongs to no tree but its own -/
theorem eq_of_below_top (distinct : (rows.map (·.id)).Nodup) {e : Execution} (he : e ∈ rows) (top : e.parent = none)
    (h : Below rows root e.id) : root = e.id := by
  rcases h.cases_tail with same | ⟨parent, -, f, hf, same, started⟩
  · exact same.symm
  · obtain rfl := List.inj_on_of_nodup_map distinct hf he same
    cases started.symm.trans top

/-- the trees of two executions that no other one started have nothing in common -/
theorem IsRootOf.unique (distinct : (rows.map (·.id)).Nodup) {r r' e : Execution} (h : r.IsRootOf rows e)
    (h' : r'.IsRootOf rows e) : r = r' := by
  have once : Relator.RightUnique (Function.swap (Started rows)) := by
    rintro id parent parent' ⟨f, hf, same, started⟩ ⟨f', hf', same', started'⟩
    obtain rfl := List.inj_on_of_nodup_map distinct hf hf' (same.trans same'.symm)
    exact Option.some.inj (started.symm.trans started')
  apply List.inj_on_of_nodup_map distinct h.row h'.row
  rcases Relation.ReflTransGen.total_of_right_unique once h.below.swap h'.below.swap with up | up
  · exact (eq_of_below_top distinct h.row h.top (Relation.reflTransGen_swap.1 up)).symm
  · exact eq_of_below_top distinct h'.row h'.top (Relation.reflTransGen_swap.1 up)

/-! ## Levels -/

theorem mem_childrenOf : id ∈ childrenOf rows ids ↔ ∃ parent ∈ ids, Started rows parent id := by
  unfold childrenOf Started
  constructor
  · intro h
    obtain ⟨e, he, same⟩ := List.mem_map.1 h
    obtain ⟨row, known⟩ := List.mem_filter.1 he
    obtain ⟨parent, started, mem⟩ := (Option.any_eq_true _ _).1 known
    exact ⟨parent, List.contains_iff_mem.1 mem, e, row, same, started⟩
  · intro ⟨parent, mem, e, row, same, started⟩
    apply List.mem_map.2
    refine ⟨e, List.mem_filter.2 ⟨row, ?_⟩, same⟩
    rw [started, Option.any_some, List.contains_iff_mem]
    exact mem

theorem childrenOf_nodup (distinct : (rows.map (·.id)).Nodup) (ids : List String) : (childrenOf rows ids).Nodup :=
  distinct.sublist (List.filter_sublist.map _)

theorem childrenOf_subset (rows : List Execution) (ids : List String) : childrenOf rows ids ⊆ rows.map (·.id) :=
  List.map_subset _ (List.filter_subset_self _)

theorem below_of_mem_levels (depth : Nat) (start : ∀ x ∈ ids, Below rows root x) :
    ∀ x ∈ (levels rows depth seen ids).flatten, Below rows root x := by
  induction depth generalizing seen ids with
  | zero =>
    intro x hx
    simp [levels] at hx
  | succ depth ih =>
    unfold levels
    split
    · simp
    · intro x hx
      rw [List.flatten_cons] at hx
      rcases List.mem_append.1 hx with here | below
      · exact start x here
      · apply ih _ x below
        intro child hchild
        obtain ⟨parent, mem, started⟩ := mem_childrenOf.1 (List.mem_of_mem_filter hchild)
        exact (start parent mem).tail started

theorem next_nodup (distinct : (rows.map (·.id)).Nodup) (once : (seen ++ ids).Nodup) :
    (seen ++ ids ++ (childrenOf rows ids).filter fun id => !(seen ++ ids).contains id).Nodup := by
  apply List.nodup_append.2
  refine ⟨once, (childrenOf_nodup distinct ids).filter _, ?_⟩
  intro x old y next same
  have new := (List.mem_filter.1 next).2
  rw [← same] at new
  simp [List.mem_append.1 old] at new

/-- what is found leads nowhere else. The levels do not run out: every one takes an id that no earlier one took. -/
theorem levels_closed (distinct : (rows.map (·.id)).Nodup) (depth : Nat) (once : (seen ++ ids).Nodup)
    (known : seen ++ ids ⊆ rows.map (·.id)) (enough : rows.length ≤ depth + seen.length) :
    ids ⊆ (levels rows depth seen ids).flatten ∧ ∀ parent ∈ (levels rows depth seen ids).flatten, ∀ x,
      Started rows parent x → x ∈ seen ++ (levels rows depth seen ids).flatten := by
  induction depth generalizing seen ids with
  | zero =>
    have count : (seen ++ ids).length ≤ rows.length := by
      simpa using (once.subperm known).length_le
    rw [List.length_append] at count
    have empty : ids = [] := List.eq_nil_of_length_eq_zero (by omega)
    simp [levels, empty]
  | succ depth ih =>
    unfold levels
    split
    case isTrue empty =>
      rw [List.isEmpty_iff.1 empty]
      simp
    case isFalse more =>
      obtain ⟨next, hnext⟩ : ∃ next, next = (childrenOf rows ids).filter fun id => !(seen ++ ids).contains id := ⟨_, rfl⟩
      have children : next ⊆ childrenOf rows ids := hnext ▸ List.filter_subset_self _
      have once' : (seen ++ ids ++ next).Nodup := hnext ▸ next_nodup distinct once
      have known' : seen ++ ids ++ next ⊆ rows.map (·.id) := by
        apply List.append_subset.2
        exact ⟨known, List.Subset.trans children (childrenOf_subset rows ids)⟩
      have nonempty : 0 < ids.length := List.length_pos_iff.2 fun empty => more (List.isEmpty_iff.2 empty)
      obtain ⟨found, closed⟩ := ih once' known' (by rw [List.length_append]; omega)
      dsimp only
      rw [← hnext, List.flatten_cons]
      refine ⟨List.subset_append_left _ _, ?_⟩
      intro parent hparent x started
      rcases List.mem_append.1 hparent with here | below
      · by_cases old : x ∈ seen ++ ids
        · rw [← List.append_assoc]
          exact List.mem_append_left _ old
        · have new : x ∈ next := by
            rw [hnext]
            exact List.mem_filter.2 ⟨mem_childrenOf.2 ⟨parent, here, started⟩, by simpa using old⟩
          rw [← List.append_assoc]
          exact List.mem_append_right _ (found new)
      · rw [← List.append_assoc]
        exact closed parent below x started

/-- **The levels of a tree hold what is below its root, and nothing else.** -/
theorem mem_treeLevels (distinct : (rows.map (·.id)).Nodup) (there : root ∈ rows.map (·.id)) :
    id ∈ (treeLevels rows root).flatten ↔ Below rows root id := by
  have known : [] ++ [root] ⊆ rows.map (·.id) := by simpa using there
  obtain ⟨start, closed⟩ := levels_closed distinct rows.length (by simp) known (by simp)
  constructor
  · intro h
    refine below_of_mem_levels rows.length ?_ id h
    intro x hx
    rw [List.mem_singleton.1 hx]
  · intro h
    induction h with
    | refl => exact start (List.mem_singleton_self root)
    | tail _ started ih => exact closed _ ih _ started

theorem length_treeLevels_pos (there : root ∈ rows.map (·.id)) : 0 < (treeLevels rows root).flatten.length := by
  cases rows with
  | nil => cases there
  | cons => simp [treeLevels, levels]

end Execution

/-! ## Tables -/

namespace ExecutionTable

open Execution Relation

variable {t t' : ExecutionTable} {gone : List String} {cutoff : Time.Timestamp}

theorem eq_of_rows (h : t.rows = t'.rows) : t = t' := by
  cases t
  cases t'
  cases h
  rfl

/-- a table is another one without the trees of some executions -/
structure Felled (t t' : ExecutionTable) (gone : List String) : Prop where
  sub : t'.rows.Sublist t.rows
  left : ∀ e ∈ t.rows, e ∈ t'.rows ↔ ∀ root ∈ gone, ¬Below t.rows root e.id

theorem Felled.refl (t : ExecutionTable) : Felled t t [] :=
  ⟨List.Sublist.refl _, by simp⟩

theorem mem_remove_tree {root : String} (there : root ∈ t.rows.map (·.id)) {e : Execution} :
    e ∈ (t.remove (treeLevels t.rows root).flatten).rows ↔ e ∈ t.rows ∧ ¬Below t.rows root e.id := by
  rw [← mem_treeLevels t.distinct there]
  simp [remove]

/-- what leads to a row that is below no root that is gone is still there -/
theorem Felled.below (h : Felled t t' gone) {root id : String} (below : Below t.rows root id)
    (spared : ∀ r ∈ gone, ¬Below t.rows r id) : Below t'.rows root id := by
  induction below with
  | refl => exact .refl
  | tail _ started ih =>
    have above := ih fun r hr below => spared r hr (below.tail started)
    obtain ⟨f, hf, same, parent⟩ := started
    exact above.tail ⟨f, (h.left f hf).2 (same ▸ spared), same, parent⟩

/-- **After one tree more is deleted,** what was below its root at the start is gone too. -/
theorem Felled.remove (h : Felled t t' gone) {root : String} (there : root ∈ t'.rows.map (·.id)) :
    Felled t (t'.remove (treeLevels t'.rows root).flatten) (root :: gone) := by
  refine ⟨List.filter_sublist.trans h.sub, ?_⟩
  intro e he
  rw [mem_remove_tree there, h.left e he, List.forall_mem_cons, and_comm]
  apply and_congr_left
  intro spared
  apply not_congr
  exact ⟨Below.mono h.sub.subset, fun below => h.below below spared⟩

/-- **A tree that is still there is the tree that it was.** -/
theorem Felled.mem_treeLevels_iff (h : Felled t t' gone) {x : Execution} (hx : x ∈ t'.rows) (top : x.parent = none)
    (roots : ∀ id ∈ gone, ∃ y ∈ t.rows, y.id = id ∧ y.parent = none) {id : String} :
    id ∈ (treeLevels t'.rows x.id).flatten ↔ id ∈ (treeLevels t.rows x.id).flatten := by
  have row := h.sub.subset hx
  rw [mem_treeLevels t'.distinct (List.mem_map_of_mem hx), mem_treeLevels t.distinct (List.mem_map_of_mem row)]
  refine ⟨Below.mono h.sub.subset, fun below => h.below below ?_⟩
  intro r hr above
  obtain ⟨y, hy, rfl, top'⟩ := roots r hr
  obtain ⟨e, -, rfl⟩ := below.row ⟨x, row, rfl⟩
  obtain rfl : y = x := IsRootOf.unique t.distinct ⟨hy, top', above⟩ ⟨row, top, below⟩
  exact (h.left y row).1 hx y.id hr .refl

theorem top_of_mem_expired {x : Execution} (hx : x ∈ t.expired cutoff) : x.parent = none := by
  have expired := (List.mem_filter.1 hx).2
  simp only [isExpired, Bool.and_eq_true, Option.isNone_iff_eq_none] at expired
  exact expired.1.1

/-- of the expired executions, the deletion of a tree takes its root alone -/
theorem expired_remove {x : Execution} (hx : x ∈ t.expired cutoff) :
    (t.remove (treeLevels t.rows x.id).flatten).expired cutoff = (t.expired cutoff).filter (·.id ≠ x.id) := by
  have row : x ∈ t.rows := List.mem_of_mem_filter hx
  unfold expired remove
  rw [List.filter_filter, List.filter_filter]
  apply List.filter_congr
  intro e he
  cases old : e.isExpired cutoff with
  | false => simp
  | true =>
    have top : e.parent = none := top_of_mem_expired (List.mem_filter.2 ⟨he, old⟩)
    have found : e.id ∈ (treeLevels t.rows x.id).flatten ↔ e.id = x.id := by
      rw [mem_treeLevels t.distinct (List.mem_map_of_mem row)]
      constructor
      · intro below
        exact (eq_of_below_top t.distinct he top below).symm
      · intro same
        rw [same]
    simp [found]

/-- **Once all expired executions are gone, those are left whose root did not expire.** -/
theorem Felled.mem_iff (h : Felled t t' gone) (old : ∀ id ∈ gone, ∃ x ∈ t.expired cutoff, x.id = id)
    (cleared : t'.expired cutoff = []) {e : Execution} :
    e ∈ t'.rows ↔ e ∈ t.rows ∧ ∀ root : Execution, root.IsRootOf t.rows e → root.isExpired cutoff = false := by
  constructor
  · intro he
    refine ⟨h.sub.subset he, ?_⟩
    intro root ⟨row, top, below⟩
    by_contra expired
    have lost : root ∉ t'.rows := by
      intro kept
      have : root ∈ t'.expired cutoff := List.mem_filter.2 ⟨kept, by simpa using expired⟩
      rw [cleared] at this
      cases this
    rw [h.left root row] at lost
    push Not at lost
    obtain ⟨r, hr, above⟩ := lost
    exact (h.left e (h.sub.subset he)).1 he r hr (above.trans below)
  · intro ⟨row, alive⟩
    rw [h.left e row]
    intro r hr below
    obtain ⟨x, hx, rfl⟩ := old r hr
    obtain ⟨there, expired⟩ := List.mem_filter.1 hx
    rw [alive x ⟨there, top_of_mem_expired hx, below⟩] at expired
    cases expired

end ExecutionTable

end Depot
