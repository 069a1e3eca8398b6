/-
Retention runs over items of which some cannot be deleted.

A cleaner counts its items once, and fetches so many pages as they fill. An item that stays is fetched again with the
next page, at the front of it. So the place of such items decides what a run does:
- `execute_complete_iff`: a run deletes every item that can be deleted, and tries every other one once, if and only if
  the pages hold all items, and those that stay are on the last page.
- `execute_stuck`: where they fill the first page, a run deletes nothing at all.

`Stock` says what a cleaner relies on: how the store counts, gives, describes and deletes the items of its kind.
`Shelf.stock` is such a store.
-/
import Mathlib.Tactic
import Depot.Proofs.Run
import Depot.Retention.Shelf

namespace Depot.Retention

/-! ## Pages of which some items stay -/

section Pages

variable {α : Type} (stays : α → Bool) (size : Nat)

/-- what is left after all items of the first page were to be deleted -/
def left (l : List α) : List α := (l.take size).filter stays ++ l.drop size

/-- what is left after so many pages -/
def leftAfter : Nat → List α → List α
  | 0, l => l
  | pages + 1, l => leftAfter pages (left stays size l)

/-- the items that stayed, once for every time that they were to be deleted -/
def kept : Nat → List α → List α
  | 0, _ => []
  | pages + 1, l => (l.take size).filter stays ++ kept pages (left stays size l)

variable {stays size} {l : List α} {pages : Nat}

theorem left_of_goes (h : ∀ x ∈ l.take size, stays x = false) : left stays size l = l.drop size := by
  rw [left, List.filter_eq_nil_iff.2 (by simpa using h), List.nil_append]

theorem filter_drop_of_goes (h : ∀ x ∈ l.take size, stays x = false) :
    (l.drop size).filter stays = l.filter stays := by
  have first : (l.take size).filter stays = [] := List.filter_eq_nil_iff.2 (by simpa using h)
  conv_rhs => rw [← List.take_append_drop size l, List.filter_append, first, List.nil_append]

/-- an item of the first page that stays is to be deleted again with the next page -/
theorem exists_kept_twice (pages : Nat) (hsize : 0 < size) (h : ¬ ∀ x ∈ l.take size, stays x = false) :
    ∃ x ∈ (l.take size).filter stays, x ∈ kept stays size (pages + 1) (left stays size l) := by
  have nonempty : (l.take size).filter stays ≠ [] := by
    intro empty
    exact h (by simpa using List.filter_eq_nil_iff.1 empty)
  obtain ⟨x, more, hx⟩ := List.exists_cons_of_ne_nil nonempty
  obtain ⟨n, rfl⟩ : ∃ n, size = n + 1 := ⟨size - 1, by omega⟩
  have stuck : stays x = true := (List.mem_filter.1 (hx ▸ List.mem_cons_self)).2
  refine ⟨x, hx ▸ List.mem_cons_self, List.mem_append_left _ ?_⟩
  rw [left, hx, List.cons_append, List.take_succ_cons, List.filter_cons_of_pos stuck]
  exact List.mem_cons_self

theorem leftAfter_none (pages : Nat) (fits : l.length ≤ pages * size) : leftAfter (fun _ => false) size pages l = [] := by
  induction pages generalizing l with
  | zero =>
    have empty : l = [] := List.eq_nil_of_length_eq_zero (by omega)
    exact empty
  | succ pages ih =>
    rw [leftAfter, left_of_goes fun _ _ => rfl]
    apply ih
    rw [List.length_drop]
    rw [Nat.add_mul] at fits
    omega

/-- one page leaves what stays, and keeps each of that once, just if nothing comes behind it -/
theorem leftAfter_one {β : Type} {label : α → β} (stays : α → Bool) (l : List α) (size : Nat) :
    leftAfter stays size 1 l = l.filter stays ∧
      ((kept stays size 1 l).map label).Perm ((l.filter stays).map label) ↔ l.length ≤ size := by
  -- what follows the page is left, and was never to be deleted
  have split : l.filter stays = (l.take size).filter stays ++ (l.drop size).filter stays := by
    rw [← List.filter_append, List.take_append_drop]
  constructor
  · intro ⟨all, once⟩
    have rest : l.drop size = (l.drop size).filter stays := by
      simpa [leftAfter, left, split] using all
    have unkept : ((l.drop size).filter stays).length = 0 := by
      have lengths := once.length_eq
      simp only [kept, List.append_nil, List.length_map, split, List.length_append] at lengths
      omega
    have behind : (l.drop size).length = 0 := by rw [rest, unkept]
    rw [List.length_drop] at behind
    omega
  · intro fits
    have whole : l.take size = l := List.take_of_length_le fits
    have behind : l.drop size = [] := List.drop_eq_nil_of_le fits
    simp [leftAfter, left, kept, whole, behind]

/-- **All items that can go are gone, and each of the others was to be deleted once, if and only if those that stay are
on the last page.** -/
theorem leftAfter_iff {β : Type} {label : α → β} (stays : α → Bool) (pages : Nat) (hsize : 0 < size)
    (apart : (l.map label).Nodup) :
    leftAfter stays size pages l = l.filter stays ∧
      ((kept stays size pages l).map label).Perm ((l.filter stays).map label) ↔
    l.length ≤ pages * size ∧ ∀ x ∈ l.take ((pages - 1) * size), stays x = false := by
  induction pages generalizing l with
  | zero =>
    constructor
    · rintro ⟨all, nothing⟩
      have : l.filter stays = [] := by simpa [kept] using nothing.symm
      rw [leftAfter, this] at all
      simp [all]
    · rintro ⟨empty, -⟩
      have : l = [] := by simpa using empty
      simp [this, leftAfter, kept]
  | succ pages ih =>
    rcases pages with _ | pages
    · rw [leftAfter_one]
      simp
    · by_cases goes : ∀ x ∈ l.take size, stays x = false
      · have apart' : ((l.drop size).map label).Nodup := apart.sublist ((List.drop_sublist _ _).map _)
        have first : (l.take size).filter stays = [] := List.filter_eq_nil_iff.2 (by simpa using goes)
        have here : l.take ((pages + 1) * size) = l.take size ++ (l.drop size).take (pages * size) := by
          rw [show (pages + 1) * size = size + pages * size by ring, List.take_add]
        rw [leftAfter, kept, left_of_goes goes, first, List.nil_append, ← filter_drop_of_goes goes, ih apart']
        simp only [Nat.add_sub_cancel, List.length_drop, here, List.mem_append]
        constructor
        · rintro ⟨fits, last⟩
          refine ⟨?_, fun x hx => hx.elim (goes x) (last x)⟩
          rw [Nat.add_mul]
          omega
        · rintro ⟨fits, last⟩
          refine ⟨?_, fun x hx => last x (.inr hx)⟩
          rw [Nat.add_mul] at fits
          omega
      · constructor
        · rintro ⟨-, once⟩
          obtain ⟨x, hx, again⟩ := exists_kept_twice pages hsize goes
          have nodup : ((kept stays size (pages + 1 + 1) l).map label).Nodup :=
            once.nodup_iff.2 (apart.sublist (List.filter_sublist.map _))
          rw [kept, List.map_append, List.nodup_append] at nodup
          exact absurd rfl (nodup.2.2 _ (List.mem_map_of_mem hx) _ (List.mem_map_of_mem again))
        · rintro ⟨-, last⟩
          refine absurd (fun x hx => last x ?_) goes
          exact (List.take_prefix_take_left (by
            rw [Nat.add_sub_cancel, Nat.add_mul]
            omega)).subset hx

/-- a page that no item leaves is the next page again -/
theorem leftAfter_stuck (h : ∀ x ∈ l.take size, stays x = true) : leftAfter stays size pages l = l := by
  have same : left stays size l = l := by
    rw [left, List.filter_eq_self.2 h, List.take_append_drop]
  induction pages with
  | zero => rfl
  | succ pages ih => rw [leftAfter, same, ih]

theorem length_left_le : (left stays size l).length ≤ l.length := by
  conv_rhs => rw [← List.take_append_drop size l, List.length_append]
  rw [left, List.length_append]
  exact Nat.add_le_add_right (List.length_filter_le _ _) _

theorem length_leftAfter_le : (leftAfter stays size pages l).length ≤ l.length := by
  induction pages generalizing l with
  | zero => exact Nat.le_refl _
  | succ pages ih => exact (ih (l := left stays size l)).trans length_left_le

end Pages

/-! ## Stores with items that stay -/

/-- the item of a record that says that it could not be deleted -/
def notDeleted? : Event → Option String
  | .itemNotDeleted item => some item
  | _ => none

/-- the items that could not be deleted, in the order in which this was put on record -/
def notDeleted (events : List Event) : List String :=
  events.reverse.filterMap notDeleted?

@[simp] theorem notDeleted_nil : notDeleted [] = [] := rfl

@[simp] theorem notDeleted_cons (e : Event) (events : List Event) :
    notDeleted (e :: events) = notDeleted events ++ (notDeleted? e).toList := by
  rw [notDeleted, notDeleted, List.reverse_cons, List.filterMap_append]
  cases h : notDeleted? e <;> simp [h]

section Stores

variable {I : Interface} {σ : Type} {serve : (c : I.Call) → σ → I.Reply c × σ} {c : Cleaner I}
  {cutoff : Time.Timestamp}

/-- what a cleaner relies on: the store counts, gives, describes and deletes the items that expired, but for those that
stay, whose deletion fails and changes nothing -/
structure Stock (serve : (c : I.Call) → σ → I.Reply c × σ) (c : Cleaner I) (cutoff : Time.Timestamp) where
  /-- the states of the store in which it behaves so -/
  sound : σ → Prop
  /-- the expired items, the oldest first -/
  expired : σ → List c.items.Item
  stays : c.items.Item → Bool
  label : c.items.Item → String
  count : ∀ s events, sound s → (c.items.count cutoff).Ends serve
    (fun r t more => r = .ok ((expired s).length : Int) ∧ sound t ∧ expired t = expired s ∧
      notDeleted more = notDeleted events) s events
  fetch : ∀ s events, sound s → (c.items.fetchPage cutoff c.pageSize).Ends serve
    (fun r t more => r = .ok ((expired s).take c.pageSize) ∧ sound t ∧ expired t = expired s ∧
      notDeleted more = notDeleted events) s events
  describe : ∀ s events x, sound s → x ∈ expired s → (c.items.describe x).Ends serve
    (fun r t more => r = .ok (label x) ∧ sound t ∧ expired t = expired s ∧ notDeleted more = notDeleted events) s events
  stay : ∀ s events x, sound s → x ∈ expired s → stays x = true → (c.items.deleteOne x).Ends serve
    (fun r t more => (∃ e, r = .error e) ∧ sound t ∧ expired t = expired s ∧ notDeleted more = notDeleted events) s events
  go : ∀ s events x before after, sound s → expired s = before ++ x :: after → stays x = false →
    (c.items.deleteOne x).Ends serve
      (fun r t more => r = .ok true ∧ sound t ∧ expired t = before ++ after ∧ notDeleted more = notDeleted events)
      s events

theorem pages_of_ceil {total pages : Int} (h : Number.ceil? total c.pageSize = some pages) :
    c.pages total = .ok pages := by
  rw [Cleaner.pages, h, Cleaner.finite]

namespace Stock

variable (K : Stock serve c cutoff) {s : σ} {events : List Event}

theorem deleteSafely_ends (hs : K.sound s) {x : c.items.Item} (before after : List c.items.Item)
    (hx : K.expired s = before ++ x :: after) :
    (c.deleteSafely x).Ends serve (fun r t more => r = .ok (!K.stays x) ∧ K.sound t ∧
      K.expired t = before ++ (if K.stays x then [x] else []) ++ after ∧
      notDeleted more = notDeleted events ++ if K.stays x then [K.label x] else []) s events := by
  have here : x ∈ K.expired s := by simp [hx]
  refine (K.describe s events x hs here).bind ?_ (by rintro e t more ⟨h, -⟩; cases h)
  rintro description t more ⟨h, ht, same, quiet⟩
  cases h
  rw [Prog.ends_record_bind, Prog.ends_bind, Prog.ends_attempt]
  cases stuck : K.stays x with
  | true =>
    refine (K.stay t _ x ht (same ▸ here) stuck).mono ?_
    rintro r u last ⟨⟨e, rfl⟩, hu, same', quiet'⟩
    dsimp only
    rw [Prog.ends_record_bind, Prog.ends_pure]
    simp [hu, same', same, hx, quiet', quiet, notDeleted?]
  | false =>
    refine (K.go t _ x before after ht (same.trans hx) stuck).mono ?_
    rintro r u last ⟨rfl, hu, rest, quiet'⟩
    simp [hu, rest, quiet', quiet, notDeleted?]

theorem deleteEach_ends (hs : K.sound s) {page after : List c.items.Item} (hpage : K.expired s = page ++ after)
    (n : Nat) :
    (c.deleteEach n page).Ends serve (fun r t more => r = .ok (n + (page.filter (!K.stays ·)).length) ∧ K.sound t ∧
      K.expired t = page.filter K.stays ++ after ∧
      notDeleted more = notDeleted events ++ (page.filter K.stays).map K.label) s events := by
  -- `seen`: the part of the page that was gone through; of it the items that stay are left, before the rest of the page
  refine Prog.Ends.foldlM (fun rest m t more => ∃ seen, page = seen ++ rest ∧ K.sound t ∧
      K.expired t = seen.filter K.stays ++ (rest ++ after) ∧ m = n + (seen.filter (!K.stays ·)).length ∧
      notDeleted more = notDeleted events ++ (seen.filter K.stays).map K.label) ?_ ?_ page n s events
    ⟨[], rfl, hs, by simpa using hpage, rfl, by simp⟩
  · rintro x rest m t more ⟨seen, rfl, ht, present, rfl, told⟩
    refine (K.deleteSafely_ends ht (seen.filter K.stays) (rest ++ after)
      (by simpa using present)).bind ?_ (by rintro e u last ⟨h, -⟩; cases h)
    rintro deleted u last ⟨h, hu, remains, told'⟩
    cases h
    refine ⟨seen ++ [x], by simp, hu, ?_, ?_, ?_⟩
    · cases stuck : K.stays x <;> simp [remains, stuck]
    · cases stuck : K.stays x <;> simp [stuck]; omega
    · cases stuck : K.stays x <;> simp [told', told, stuck]
  · rintro m t more ⟨seen, rfl, ht, remains, rfl, told⟩
    simpa [ht, told] using remains

theorem deletePages_ends (pages : Nat) (hs : K.sound s) (n : Nat) :
    (c.deletePages cutoff pages n).Ends serve (fun r t more =>
      r = .ok (n + ((K.expired s).length - (leftAfter K.stays c.pageSize pages (K.expired s)).length)) ∧ K.sound t ∧
      K.expired t = leftAfter K.stays c.pageSize pages (K.expired s) ∧
      notDeleted more = notDeleted events ++ (kept K.stays c.pageSize pages (K.expired s)).map K.label) s events := by
  induction pages generalizing s n events with
  | zero => simp [Cleaner.deletePages, leftAfter, kept, hs]
  | succ pages ih =>
    rw [Cleaner.deletePages, Cleaner.deletePage, LawfulMonad.bind_assoc]
    refine (K.fetch s events hs).bind ?_ (by rintro e t more ⟨h, -⟩; cases h)
    rintro page t more ⟨h, ht, same, quiet⟩
    cases h
    have split : K.expired t = (K.expired s).take c.pageSize ++ (K.expired s).drop c.pageSize := by
      rw [same, List.take_append_drop]
    refine (K.deleteEach_ends ht split n).bind ?_ (by rintro e u last ⟨h, -⟩; cases h)
    rintro m u last ⟨h, hu, remains, told⟩
    cases h
    refine (ih hu _).mono ?_
    rintro r v final ⟨rfl, hv, remains', told'⟩
    have after : K.expired u = left K.stays c.pageSize (K.expired s) := remains
    rw [after] at remains' told' ⊢
    refine ⟨?_, hv, remains', ?_⟩
    · -- what a page lost is what was deleted
      have shorter : (leftAfter K.stays c.pageSize pages (left K.stays c.pageSize (K.expired s))).length ≤
          (left K.stays c.pageSize (K.expired s)).length := length_leftAfter_le
      have parts : ((K.expired s).take c.pageSize).length = (((K.expired s).take c.pageSize).filter K.stays).length +
          (((K.expired s).take c.pageSize).filter (!K.stays ·)).length :=
        List.length_eq_length_filter_add K.stays
      have whole : (K.expired s).length =
          ((K.expired s).take c.pageSize).length + ((K.expired s).drop c.pageSize).length := by
        rw [← List.length_append, List.take_append_drop]
      have here : (left K.stays c.pageSize (K.expired s)).length =
          (((K.expired s).take c.pageSize).filter K.stays).length + ((K.expired s).drop c.pageSize).length := by
        rw [left, List.length_append]
      rw [leftAfter]
      congr 1
      omega
    · rw [told', told, quiet, kept, List.map_append, List.append_assoc]

theorem execute_ends (hs : K.sound s) {pages : Int} (h : c.pages (K.expired s).length = .ok pages)
    (events : List Event) :
    (c.execute cutoff).Ends serve (fun r t more =>
      r = .ok ((K.expired s).length - (leftAfter K.stays c.pageSize pages.toNat (K.expired s)).length) ∧ K.sound t ∧
      K.expired t = leftAfter K.stays c.pageSize pages.toNat (K.expired s) ∧
      notDeleted more = notDeleted events ++ (kept K.stays c.pageSize pages.toNat (K.expired s)).map K.label)
      s events := by
  rw [Cleaner.execute, Prog.ends_record_bind]
  have first := K.count s (.willDelete c.name cutoff :: events) hs
  refine first.bind ?_ (by rintro e t more ⟨failed, -⟩; cases failed)
  rintro total t more ⟨counted, ht, same, quiet⟩
  cases counted
  rw [h, Prog.ofExcept_ok_bind, Prog.ends_record_bind]
  refine (K.deletePages_ends pages.toNat ht 0).bind ?_ (by rintro e u last ⟨h, -⟩; cases h)
  rintro deleted u last ⟨h, hu, remains, told⟩
  cases h
  rw [same] at remains told ⊢
  rw [Prog.ends_record_bind, Prog.ends_pure]
  exact ⟨by simp, hu, remains, by simp [told, quiet, notDeleted?]⟩

/-- what is promised of a run: it deletes every item that can be deleted and counts them, and every other item was tried
once -/
structure Complete (s : σ) (r : Prog.Run σ Nat) : Prop where
  counted : r.outcome = .ok ((K.expired s).filter (!K.stays ·)).length
  remains : K.expired r.state = (K.expired s).filter K.stays
  tried : (notDeleted r.record).Perm (((K.expired s).filter K.stays).map K.label)

/-- **A run keeps its promise if and only if its pages hold all items and those that stay are on the last page.** The
items are told apart by their descriptions. -/
theorem execute_complete_iff (hs : K.sound s) (apart : ((K.expired s).map K.label).Nodup) :
    K.Complete s ((c.execute cutoff).run serve s) ↔
      ∃ pages, c.pages (K.expired s).length = .ok pages ∧ (K.expired s).length ≤ pages.toNat * c.pageSize ∧
        ∀ x ∈ (K.expired s).take ((pages.toNat - 1) * c.pageSize), K.stays x = false := by
  cases h : c.pages (K.expired s).length with
  | error e =>
    have failed : (c.execute cutoff).Ends serve (fun r _ _ => r = .error e) s [] := by
      rw [Cleaner.execute, Prog.ends_record_bind]
      have first := K.count s [.willDelete c.name cutoff] hs
      refine first.bind ?_ (by rintro e t more ⟨failed, -⟩; cases failed)
      rintro total t more ⟨counted, -⟩
      cases counted
      rw [h, Prog.ofExcept_error_bind, Prog.ends_fail]
    rw [Prog.ends_iff] at failed
    constructor
    · rintro ⟨counted, -⟩
      exact absurd (failed.symm.trans counted) (by simp)
    · rintro ⟨pages, h, -⟩
      cases h
  | ok pages =>
    obtain ⟨counted, -, remains, told⟩ := (Prog.ends_iff ..).1 (K.execute_ends hs h [])
    rw [notDeleted_nil, List.nil_append] at told
    have exact_ := leftAfter_iff K.stays pages.toNat c.positive apart
    constructor
    · rintro ⟨-, all, once⟩
      exact ⟨pages, rfl, exact_.1 ⟨remains.symm.trans all, by rw [← told]; exact once⟩⟩
    · rintro ⟨pages', same, place⟩
      cases same
      obtain ⟨all, once⟩ := exact_.2 place
      refine ⟨counted.trans ?_, remains.trans all, by rw [Prog.run, told]; exact once⟩
      have parts := List.length_eq_length_filter_add (l := K.expired s) K.stays
      have counts : (K.expired s).length - ((K.expired s).filter K.stays).length =
          ((K.expired s).filter (!K.stays ·)).length := by omega
      rw [all, counts]

/-- where the items that stay fill the first page, nothing is deleted -/
theorem execute_stuck (hs : K.sound s) {pages : Int} (h : c.pages (K.expired s).length = .ok pages)
    (full : ∀ x ∈ (K.expired s).take c.pageSize, K.stays x = true) :
    (c.execute cutoff).Ends serve (fun r t _ => r = .ok 0 ∧ K.expired t = K.expired s) s [] := by
  refine (K.execute_ends hs h []).mono ?_
  rintro r t more ⟨rfl, -, remains, -⟩
  rw [leftAfter_stuck full] at remains ⊢
  exact ⟨by rw [Nat.sub_self], remains⟩

end Stock

end Stores

/-! ## Items in order -/

section Order

variable {α β : Type} [DecidableEq β] {label : α → β} {le : α → α → Bool}

/-- **Without one of several items that are told apart,** those before it and those after it are left. -/
theorem filter_of_split {l before after : List α} {x : α} (apart : (l.map label).Nodup) (h : l = before ++ x :: after) :
    l.filter (fun y => label y ≠ label x) = before ++ after := by
  rw [h, List.map_append, List.map_cons, List.nodup_append] at apart
  have last := (List.nodup_cons.1 apart.2.1).1
  have others : ∀ y ∈ before ++ after, decide (label y ≠ label x) = true := by
    intro y hy
    rw [decide_eq_true_iff]
    rcases List.mem_append.1 hy with hy | hy
    · exact apart.2.2 _ (List.mem_map_of_mem hy) _ List.mem_cons_self
    · exact fun same => last (same ▸ List.mem_map_of_mem hy)
  rw [h, List.filter_append, List.filter_cons_of_neg (by simp), ← List.filter_append, List.filter_eq_self.2 others]

/-- of two cuts of one list, each right before the first place that is not less than an item, neither is longer -/
theorem cut_unique {a : α} {xs ys xs' ys' : List α} (h : xs ++ ys = xs' ++ ys') (hx : ∀ b ∈ xs, !le a b)
    (hy : ∀ b ∈ ys, le a b) (hx' : ∀ b ∈ xs', !le a b) (hy' : ∀ b ∈ ys', le a b) : xs = xs' ∧ ys = ys' := by
  have cut : ∀ {us vs : List α}, (∀ b ∈ us, !le a b) → (∀ b ∈ vs, le a b) →
      (us ++ vs).filter (fun b => !le a b) = us ∧ (us ++ vs).filter (le a ·) = vs := by
    intro us vs hu hv
    constructor
    · rw [List.filter_append, List.filter_eq_self.2 hu, List.filter_eq_nil_iff.2 (by simpa using hv), List.append_nil]
    · rw [List.filter_append, List.filter_eq_self.2 hv, List.filter_eq_nil_iff.2 (by simpa using hu), List.nil_append]
  exact ⟨(cut hx hy).1.symm.trans (h ▸ (cut hx' hy').1), (cut hx hy).2.symm.trans (h ▸ (cut hx' hy').2)⟩

/-- **Sorting keeps the order of what is left out of a list.** -/
theorem mergeSort_filter (trans : ∀ a b c, le a b → le b c → le a c) (total : ∀ a b, le a b || le b a)
    (p : α → Bool) (l : List α) : (l.filter p).mergeSort le = (l.mergeSort le).filter p := by
  induction l with
  | nil => simp
  | cons a l ih =>
    obtain ⟨xs, ys, hcons, htail, less⟩ := List.mergeSort_cons trans total a l
    cases ha : p a with
    | false => rw [List.filter_cons_of_neg (by simp [ha]), ih, hcons, htail]; simp [ha]
    | true =>
      rw [List.filter_cons_of_pos ha, hcons]
      obtain ⟨xs', ys', hcons', htail', less'⟩ := List.mergeSort_cons trans total a (l.filter p)
      have sorted := List.pairwise_mergeSort trans total (a :: l)
      have sorted' := List.pairwise_mergeSort trans total (a :: l.filter p)
      rw [hcons] at sorted
      rw [hcons'] at sorted'
      have above := (List.pairwise_cons.1 (List.pairwise_append.1 sorted).2.1).1
      have above' := (List.pairwise_cons.1 (List.pairwise_append.1 sorted').2.1).1
      have same : xs' ++ ys' = xs.filter p ++ ys.filter p := by
        rw [← htail', ih, htail, List.filter_append]
      obtain ⟨hx, hy⟩ := cut_unique same less' above' (fun b hb => less b (List.mem_of_mem_filter hb))
        (fun b hb => above b (List.mem_of_mem_filter hb))
      rw [hcons', List.filter_append, List.filter_cons_of_pos ha, hx, hy]

end Order

/-! ## Shelves -/

/-- a shelf whose records go, or stay for good -/
structure Shelf.Plain (s : Shelf) : Prop where
  whole : s.defect = none
  honest : s.claimed = none
  conduct : ∀ x ∈ s.specimens, x.conduct = .goes ∨ x.conduct = .locked
  apart : (s.specimens.map (·.serial)).Nodup

namespace Shelf

variable {s : Shelf} {x : Specimen}

theorem mem_expired : x ∈ s.expired ↔ x ∈ s.specimens ∧ x.minutes < 0 := by
  simp [expired]

theorem expired_without (serial : Nat) : (s.without serial).expired = s.expired.filter (·.serial ≠ serial) := by
  simp only [expired, without]
  rw [List.filter_comm, mergeSort_filter]
  · exact List.filter_congr fun x _ => by rw [Bool.eq_iff_iff]; simp
  · intro a b c hab hbc
    simp only [decide_eq_true_eq] at hab hbc ⊢
    omega
  · intro a b
    simp only [Bool.or_eq_true, decide_eq_true_eq]
    omega

theorem Plain.serials_expired (h : s.Plain) : (s.expired.map (·.serial)).Nodup := by
  refine ((List.mergeSort_perm _ _).map _).nodup_iff.2 (h.apart.sublist (List.filter_sublist.map _))

/-- the record that goes is the only one that does -/
theorem Plain.without_expired (h : s.Plain) {before after : List Specimen} (hx : s.expired = before ++ x :: after) :
    (s.without x.serial).expired = before ++ after := by
  rw [expired_without]
  exact filter_of_split h.serials_expired hx

theorem Plain.without (h : s.Plain) (serial : Nat) : (s.without serial).Plain :=
  ⟨h.whole, h.honest, fun x hx => h.conduct x (List.mem_of_mem_filter hx), h.apart.sublist (List.filter_sublist.map _)⟩

end Shelf

/-- the expired records of the shelf in a place -/
def expiredAt (place : Nat) (shelves : List Shelf) : List Specimen :=
  (shelves[place]?).elim [] Shelf.expired

theorem atShelf_of_some {shelves : List Shelf} {place : Nat} {α : Type} {none_ : α} {f : Shelf → α × Shelf} {s : Shelf}
    (h : shelves[place]? = some s) : atShelf shelves place none_ f = ((f s).1, shelves.set place (f s).2) := by
  rw [atShelf, h]

theorem getElem?_set_place {shelves : List Shelf} {place : Nat} {s t : Shelf} (h : shelves[place]? = some s) :
    (shelves.set place t)[place]? = some t :=
  List.getElem?_set_self (List.getElem?_eq_some_iff.1 h).1

theorem expiredAt_of_some {shelves : List Shelf} {place : Nat} {s : Shelf} (h : shelves[place]? = some s) :
    expiredAt place shelves = s.expired := by
  rw [expiredAt, h, Option.elim_some]

theorem expiredAt_set {shelves : List Shelf} {place : Nat} {s t : Shelf} (h : shelves[place]? = some s) :
    expiredAt place (shelves.set place t) = t.expired := by
  rw [expiredAt, getElem?_set_place h, Option.elim_some]

section Replies

variable {shelves : List Shelf} {place : Nat} {s : Shelf} {x : Specimen}

theorem serveShelf_count (here : shelves[place]? = some s) (h : s.Plain) :
    serveShelf (.count place) shelves = (.ok (s.expired.length : Int), shelves.set place s) := by
  rw [serveShelf, atShelf_of_some here]
  simp [Shelf.count, h.whole, h.honest]

theorem serveShelf_fetch (here : shelves[place]? = some s) (h : s.Plain) (limit : Nat) :
    ∃ t : Shelf, serveShelf (.fetch place limit) shelves = (.ok (s.expired.take limit), shelves.set place t) ∧ t.Plain ∧
      t.expired = s.expired := by
  refine ⟨{ s with given := (s.expired.take limit).length :: s.given }, ?_,
    ⟨h.whole, h.honest, h.conduct, h.apart⟩, rfl⟩
  rw [serveShelf, atShelf_of_some here]
  simp [Shelf.fetch, h.whole]

theorem serveShelf_stay (here : shelves[place]? = some s) (h : s.Plain) (stuck : x.conduct = .locked) :
    ∃ t : Shelf, serveShelf (.delete place x) shelves = (.error .lockedRow, shelves.set place t) ∧ t.Plain ∧
      t.expired = s.expired := by
  refine ⟨{ s with asked := x.name :: s.asked }, ?_, ⟨h.whole, h.honest, h.conduct, h.apart⟩, rfl⟩
  rw [serveShelf, atShelf_of_some here]
  simp [Shelf.delete, stuck]

theorem serveShelf_go (here : shelves[place]? = some s) (h : s.Plain) (goes : x.conduct = .goes) :
    ∃ t : Shelf, serveShelf (.delete place x) shelves = (.ok true, shelves.set place t) ∧ t.Plain ∧
      t.expired = (s.without x.serial).expired := by
  have plain : ({ s with asked := x.name :: s.asked } : Shelf).Plain := ⟨h.whole, h.honest, h.conduct, h.apart⟩
  refine ⟨({ s with asked := x.name :: s.asked } : Shelf).without x.serial, ?_, plain.without _, rfl⟩
  rw [serveShelf, atShelf_of_some here]
  simp [Shelf.delete, goes]

end Replies

/-- a shelf whose records go, or stay for good, is such a store -/
def Shelf.stock (place : Nat) (name : String) (size : Nat) (positive : 0 < size) (cutoff : Time.Timestamp) :
    Stock serveShelf ⟨onShelf place name, size, positive⟩ cutoff where
  sound shelves := ∃ s, shelves[place]? = some s ∧ s.Plain
  expired := expiredAt place
  stays x := decide (x.conduct = .locked)
  label x := "record " ++ x.name
  count := by
    rintro shelves events ⟨s, here, plain⟩
    simp only [onShelf, askShelf]
    rw [Prog.ends_ask_bind, serveShelf_count here plain, Prog.ends_ofReply]
    exact ⟨by rw [expiredAt_of_some here]; rfl, ⟨s, getElem?_set_place here, plain⟩,
      (expiredAt_set here).trans (expiredAt_of_some here).symm, rfl⟩
  fetch := by
    rintro shelves events ⟨s, here, plain⟩
    obtain ⟨t, given, plain', same⟩ := serveShelf_fetch here plain size
    simp only [onShelf, askShelf, Int.toNat_natCast]
    rw [Prog.ends_ask_bind, given, Prog.ends_ofReply]
    exact ⟨by rw [expiredAt_of_some here]; rfl, ⟨t, getElem?_set_place here, plain'⟩,
      ((expiredAt_set here).trans same).trans (expiredAt_of_some here).symm, rfl⟩
  describe := by
    rintro shelves events x ⟨s, here, plain⟩ hx
    rw [expiredAt_of_some here] at hx
    have described : x.conduct ≠ .undescribable := by
      rcases plain.conduct x (Shelf.mem_expired.1 hx).1 with h | h <;> simp [h]
    simp only [onShelf, if_neg described, Prog.ends_pure]
    exact ⟨trivial, ⟨s, here, plain⟩, trivial, trivial⟩
  stay := by
    rintro shelves events x ⟨s, here, plain⟩ - stuck
    obtain ⟨t, answered, plain', same⟩ := serveShelf_stay here plain (of_decide_eq_true stuck)
    simp only [onShelf, askShelf]
    rw [Prog.ends_ask_bind, answered, Prog.ends_ofReply]
    exact ⟨⟨_, rfl⟩, ⟨t, getElem?_set_place here, plain'⟩,
      ((expiredAt_set here).trans same).trans (expiredAt_of_some here).symm, rfl⟩
  go := by
    rintro shelves events x before after ⟨s, here, plain⟩ hx loose
    rw [expiredAt_of_some here] at hx
    have goes : x.conduct = .goes :=
      (plain.conduct x (Shelf.mem_expired.1 (hx ▸ List.mem_append_right _ List.mem_cons_self)).1).resolve_right (of_decide_eq_false loose)
    obtain ⟨t, answered, plain', less⟩ := serveShelf_go here plain goes
    simp only [onShelf, askShelf]
    rw [Prog.ends_ask_bind, answered, Prog.ends_ofReply]
    exact ⟨rfl, ⟨t, getElem?_set_place here, plain'⟩,
      ((expiredAt_set here).trans less).trans (plain.without_expired hx), rfl⟩

/-- a shelf with a record that goes and, after it, one that stays -/
def Shelf.lateLock : Shelf := .stocked "records" [("a", -10, .goes), ("b", -5, .locked)] none none

theorem Shelf.plain_lateLock : Shelf.lateLock.Plain where
  whole := rfl
  honest := rfl
  conduct := by decide
  apart := by decide

theorem Shelf.expired_lateLock : expiredAt 0 [Shelf.lateLock] = Shelf.lateLock.specimens := by
  rw [expiredAt_of_some rfl, Shelf.expired, List.mergeSort_of_pairwise (by decide)]
  rfl

theorem execute_complete_lateLock :
    (Shelf.stock 0 "records" 1 Nat.one_pos default).Complete [Shelf.lateLock]
      ((Cleaner.execute ⟨onShelf 0 "records", 1, Nat.one_pos⟩ default).run serveShelf [Shelf.lateLock]) := by
  have two : Number.ceil? 2 1 = some 2 := by decide +kernel
  refine ((Shelf.stock 0 "records" 1 Nat.one_pos default).execute_complete_iff ⟨_, rfl, Shelf.plain_lateLock⟩ ?_).2
    ⟨2, ?_⟩
  · show ((expiredAt 0 [Shelf.lateLock]).map fun x => "record " ++ x.name).Nodup
    rw [Shelf.expired_lateLock]
    decide
  · show Cleaner.pages _ (expiredAt 0 [Shelf.lateLock]).length = _ ∧
      (expiredAt 0 [Shelf.lateLock]).length ≤ 2 * 1 ∧
      ∀ x ∈ (expiredAt 0 [Shelf.lateLock]).take 1, decide (x.conduct = .locked) = false
    rw [Shelf.expired_lateLock]
    exact ⟨pages_of_ceil two, by decide, by decide⟩

end Depot.Retention
