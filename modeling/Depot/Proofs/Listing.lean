/-
Objects by their keys, and listings of keys in pages.

`get?_put` and `get?_erase` say what a bucket holds after a change. A listing is ascending (`listed_ascending`), so what
comes after the last key of a page is the listing without that page (`listed_after_page`), and without the keys that
were erased on the way (`listed_erase`).
-/
import Depot.Bucket

namespace Depot.Bucket

/-! ## Objects -/

theorem lookup_cons_if (x : String × Object) (rest : List (String × Object)) (k : String) :
    (x :: rest).lookup k = if k = x.1 then some x.2 else rest.lookup k := by
  rw [List.lookup_cons]
  by_cases h : k = x.1
  · simp [h]
  · rw [beq_eq_false_iff_ne.2 h, if_neg h]

theorem lookup_insertInto (key : String) (o : Object) (objects : List (String × Object)) (k : String) :
    (insertInto key o objects).lookup k = if k = key then some o else objects.lookup k := by
  induction objects with
  | nil => rw [insertInto, lookup_cons_if]
  | cons x rest ih =>
    rw [insertInto]
    split
    case isTrue less => rw [lookup_cons_if]
    case isFalse notLess =>
      split
      case isTrue same =>
        rw [lookup_cons_if, lookup_cons_if, ← same]
        split <;> rfl
      case isFalse differ =>
        rw [lookup_cons_if, lookup_cons_if, ih]
        by_cases hx : k = x.1
        · rw [if_pos hx, if_pos hx, if_neg fun h => differ (h.symm.trans hx)]
        · rw [if_neg hx, if_neg hx]

@[simp] theorem get?_put (b : Bucket) (key : String) (o : Object) (k : String) :
    (b.put key o).get? k = if k = key then some o else b.get? k :=
  lookup_insertInto key o b.objects k

theorem lookup_filter_key (p : String → Bool) (objects : List (String × Object)) (k : String) :
    (objects.filter fun x => p x.1).lookup k = if p k then objects.lookup k else none := by
  induction objects with
  | nil => simp
  | cons x rest ih =>
    rw [List.filter_cons, lookup_cons_if]
    by_cases hp : p x.1
    · rw [if_pos hp, lookup_cons_if, ih]
      by_cases hx : k = x.1
      · rw [if_pos hx, if_pos hx, hx, if_pos hp]
      · rw [if_neg hx, if_neg hx]
    · rw [if_neg hp, ih]
      by_cases hx : k = x.1
      · rw [hx, if_neg hp, if_neg hp]
      · rw [if_neg hx]

@[simp] theorem get?_erase (b : Bucket) (keys : List String) (k : String) :
    (b.erase keys).get? k = if k ∈ keys then none else b.get? k := by
  have h := lookup_filter_key (fun k => !keys.contains k) b.objects k
  simp only [get?, erase]
  rw [h]
  by_cases hk : k ∈ keys <;> simp [hk]

theorem erase_nil (b : Bucket) : b.erase [] = b := by
  obtain ⟨objects, ascending⟩ := b
  simp [erase]

theorem erase_erase (b : Bucket) (gone gone' : List String) : (b.erase gone).erase gone' = b.erase (gone ++ gone') := by
  simp only [erase, List.filter_filter, mk.injEq]
  exact List.filter_congr fun x _ => by simp [List.contains_eq_mem, List.mem_append, Bool.and_comm]

@[simp] theorem get?_empty (k : String) : empty.get? k = none := rfl

theorem mem_keys_iff {b : Bucket} {k : String} : k ∈ b.keys ↔ ∃ o, b.get? k = some o := by
  simp only [keys, get?]
  induction b.objects with
  | nil => simp
  | cons x rest ih =>
    rw [List.map_cons, List.mem_cons, ih, lookup_cons_if]
    by_cases hx : k = x.1
    · simp [hx]
    · simp [hx]

theorem mem_objects_iff {b : Bucket} {k : String} {o : Object} : (k, o) ∈ b.objects ↔ b.get? k = some o := by
  obtain ⟨objects, ascending⟩ := b
  simp only [get?]
  induction objects with
  | nil => simp
  | cons x rest ih =>
    obtain ⟨after, later⟩ := List.pairwise_cons.1 ascending
    rw [List.mem_cons, ih later, lookup_cons_if]
    split
    case isTrue same =>
      subst same
      constructor
      · rintro (own | found)
        · rw [← own]
        · exact absurd (after (x.1, o) ((ih later).2 found)) (String.lt_irrefl _)
      · intro own
        exact .inl (by rw [← Option.some.inj own])
    case isFalse differ =>
      refine ⟨fun h => h.resolve_left fun same => differ (congrArg Prod.fst same), .inr⟩

/-- **A bucket is known by what is at its keys.** -/
theorem ext_get? {b c : Bucket} (h : ∀ k, b.get? k = c.get? k) : b = c := by
  have distinct : ∀ b : Bucket, b.objects.Nodup := fun b => b.ascending.imp fun less same =>
    absurd (same ▸ less) (String.lt_irrefl _)
  have same : b.objects = c.objects := by
    refine List.Perm.eq_of_pairwise (fun x y _ _ less more => absurd (String.lt_trans less more) (String.lt_irrefl _))
      b.ascending c.ascending ((List.perm_ext_iff_of_nodup (distinct b) (distinct c)).2 fun x => ?_)
    rw [mem_objects_iff, mem_objects_iff, h]
  cases b
  cases c
  cases same
  rfl

theorem erase_congr {b : Bucket} {gone gone' : List String} (h : ∀ k, k ∈ gone ↔ k ∈ gone') : b.erase gone = b.erase gone' :=
  ext_get? fun k => by simp only [get?_erase, h]

/-! ## Listings -/

theorem keys_ascending (b : Bucket) : b.keys.Pairwise (· < ·) :=
  List.pairwise_map.2 b.ascending

theorem listed_ascending (b : Bucket) (start : String) (after : Option String) :
    (b.listed start after).Pairwise (· < ·) :=
  b.keys_ascending.filter _

theorem listed_nodup (b : Bucket) (start : String) (after : Option String) : (b.listed start after).Nodup := by
  refine List.Pairwise.imp ?_ (b.listed_ascending start after)
  rintro x _ less rfl
  exact String.lt_irrefl x less

theorem mem_listed {b : Bucket} {start : String} {after : Option String} {k : String} :
    k ∈ b.listed start after ↔ k ∈ b.keys ∧ startsWith start k = true ∧ ∀ a ∈ after, a < k := by
  simp only [listed, List.mem_filter, Bool.and_eq_true, Option.all_eq_true, decide_eq_true_eq]
  rfl

theorem length_listed_le (b : Bucket) (start : String) (after : Option String) :
    (b.listed start after).length ≤ b.objects.length := by
  have same : b.keys.length = b.objects.length := List.length_map _
  rw [← same]
  exact List.length_filter_le _ _

theorem keys_erase (b : Bucket) (gone : List String) : (b.erase gone).keys = b.keys.filter (!gone.contains ·) := by
  simp only [keys, erase, List.filter_map]
  rfl

theorem listed_erase_filter (b : Bucket) (gone : List String) (start : String) (after : Option String) :
    (b.erase gone).listed start after = (b.listed start after).filter (!gone.contains ·) := by
  simp only [listed, keys_erase, List.filter_filter]
  exact List.filter_congr fun k _ => Bool.and_comm _ _

theorem listed_erase (b : Bucket) (gone : List String) (start : String) (after : Option String) :
    (b.erase gone).listed start after = (b.listed start after).filter fun k => ((b.erase gone).get? k).isSome := by
  rw [listed_erase_filter]
  refine List.filter_congr fun k hk => ?_
  obtain ⟨o, ho⟩ := mem_keys_iff.1 (mem_listed.1 hk).1
  by_cases hgone : k ∈ gone
  · simp [hgone]
  · simp [hgone, ho]

theorem length_erase_le (b : Bucket) (gone : List String) : (b.erase gone).objects.length ≤ b.objects.length :=
  List.length_filter_le _ _

theorem length_put_le (b : Bucket) (key : String) (o : Object) :
    (b.put key o).objects.length ≤ b.objects.length + 1 := by
  have longer (objects : List (String × Object)) : (insertInto key o objects).length ≤ objects.length + 1 := by
    induction objects with
    | nil => exact Nat.le_refl 1
    | cons x rest ih =>
      rw [insertInto]
      split
      · exact Nat.le_refl _
      · split
        · exact Nat.le_succ _
        · exact Nat.succ_le_succ ih
  exact longer b.objects

/-- what is greater than the last of the first elements of an ascending list -/
theorem filter_lt_getLast {keys : List String} (ascending : keys.Pairwise (· < ·)) {n : Nat} {last : String}
    (h : (keys.take n).getLast? = some last) : keys.filter (last < ·) = keys.drop n := by
  have split : keys.take n ++ keys.drop n = keys := List.take_append_drop n keys
  have sorted := List.pairwise_append.1 (split.symm ▸ ascending)
  have first : (keys.take n).filter (fun k => decide (last < k)) = [] := by
    refine List.filter_eq_nil_iff.2 fun k hk => ?_
    rw [List.getLast?_eq_some_iff] at h
    obtain ⟨before, hb⟩ := h
    rw [hb] at hk sorted
    rcases List.mem_append.1 hk with hk | hk
    · have := (List.pairwise_append.1 sorted.1).2.2 k hk last (by simp)
      rw [decide_eq_true_eq]
      exact String.lt_asymm this
    · rw [List.mem_singleton.1 hk, decide_eq_true_eq]
      exact String.lt_irrefl last
  have second : (keys.drop n).filter (fun k => decide (last < k)) = keys.drop n := by
    refine List.filter_eq_self.2 fun k hk => ?_
    exact decide_eq_true (sorted.2.2 last (List.mem_of_getLast? h) k hk)
  calc keys.filter (last < ·) = (keys.take n ++ keys.drop n).filter (last < ·) := by rw [split]
    _ = keys.drop n := by rw [List.filter_append, first, second, List.nil_append]

/-- **The next page starts where the page before ended.** -/
theorem listed_after_page {b : Bucket} {start : String} {after : Option String} {last : String}
    (h : (b.page start after).keys.getLast? = some last) :
    b.listed start (some last) = (b.listed start after).drop pageSize := by
  rw [← filter_lt_getLast (b.listed_ascending start after) h]
  have hlast := mem_listed.1 (List.mem_of_mem_take (List.mem_of_getLast? h))
  simp only [listed, List.filter_filter]
  refine List.filter_congr fun k _ => ?_
  rw [Bool.eq_iff_iff]
  simp only [Bool.and_eq_true, Option.all_eq_true, decide_eq_true_eq, Option.some.injEq, forall_eq']
  constructor
  · rintro ⟨hs, hk⟩
    exact ⟨hk, hs, fun a ha => String.lt_trans (hlast.2.2 a ha) hk⟩
  · rintro ⟨hk, hs, -⟩
    exact ⟨hs, hk⟩

/-- **A key that is listed is on the page, or comes after it.** -/
theorem mem_page_or {b : Bucket} {start : String} {after : Option String} {k : String} (h : k ∈ b.listed start after) :
    k ∈ (b.page start after).keys ∨
      (b.page start after).more = true ∧ ∀ last ∈ (b.page start after).keys.getLast?, last < k := by
  have split : (b.page start after).keys ++ (b.listed start after).drop pageSize = b.listed start after :=
    List.take_append_drop pageSize _
  rw [← split, List.mem_append] at h
  refine h.imp_right fun later => ⟨?_, fun last hlast => ?_⟩
  · have nonempty : (b.listed start after).drop pageSize ≠ [] := List.ne_nil_of_mem later
    rw [ne_eq, List.drop_eq_nil_iff, Nat.not_le] at nonempty
    exact decide_eq_true nonempty
  · rw [← listed_after_page hlast] at later
    exact (mem_listed.1 later).2.2 last rfl

/-- **A page that is not the last one has a last key,** after which the listing goes on with what was not erased. -/
theorem next_listing {b : Bucket} {start : String} {after : Option String} (more : (b.page start after).more = true) :
    ∃ last, (b.page start after).keys.getLast? = some last ∧ ∀ gone,
      (b.erase gone).listed start (some last) =
        ((b.listed start after).drop pageSize).filter (fun k => ((b.erase gone).get? k).isSome) ∧
      ((b.erase gone).listed start (some last)).length < (b.listed start after).length := by
  have full : pageSize < (b.listed start after).length := of_decide_eq_true more
  have some_key : (b.page start after).keys ≠ [] := by
    rw [page, ne_eq, List.take_eq_nil_iff, not_or]
    exact ⟨by decide, List.ne_nil_of_length_pos (Nat.zero_lt_of_lt full)⟩
  obtain ⟨last, hlast⟩ : ∃ last, (b.page start after).keys.getLast? = some last :=
    ⟨_, List.getLast?_eq_some_getLast some_key⟩
  refine ⟨last, hlast, fun gone => ?_⟩
  have later : (b.erase gone).listed start (some last) =
      ((b.listed start after).drop pageSize).filter fun k => ((b.erase gone).get? k).isSome := by
    rw [listed_erase, listed_after_page hlast]
  have fewer : ((b.erase gone).listed start (some last)).length ≤ ((b.listed start after).drop pageSize).length := by
    rw [later]
    exact List.length_filter_le _ _
  have size : 0 < pageSize := by decide
  rw [List.length_drop] at fewer
  exact ⟨later, by omega⟩

end Depot.Bucket
