/-
Retention of records that others delete too.

A cleaner counts its items once and fetches as many pages as they fill. Others may delete items after each of its calls, so
the count is soon too high, a page may hold items that are gone when their turn comes, and a late page may hold none. None
of this does harm. Whatever is fetched is gone after its page, by one or the other, so each page takes its full number of
items away as long as there are so many (`deletePage_follows`), and the pages never run out too early. Each expired item is
deleted once, and whoever does it counts it (`Holdings.Reduced`). So a run leaves no expired item, and what it counted and
what others took make up the count it began with (`execute_shared`).

`Holdings` says what is known of such a store, `Holdings.shared` what a cleaner may do to it and what others may do, and
`Cleaner.Fits` what a cleaner relies on. Executions and files are kept in such stores (`executions_fit`, `files_fit`).
-/
import Depot.Proofs.Stocks
import Depot.Proofs.TreeRetention
import Depot.Proofs.Turns

namespace Depot

/-! ## Programs that return -/

section Returns

variable {I : Interface} {α β σ : Type} {P : Protocol I σ} {p : Prog I α} {s : σ} {J : α → σ → Prop}

/-- what is asked of a program that must end well -/
def Returns (J : α → σ → Prop) : Except Failure α → σ → Prop :=
  fun r t => ∃ a, r = .ok a ∧ J a t

theorem Prog.Follows.returns {f : α → Prog I β} {Q : Except Failure β → σ → Prop} (h : p.Follows P (Returns J) s)
    (ok : ∀ a t, J a t → (f a).Follows P Q t) : (p >>= f).Follows P Q s := by
  refine h.bind (fun a t ha => ?_) (fun e t he => ?_)
  · obtain ⟨_, ⟨⟩, ha⟩ := ha
    exact ok a t ha
  · obtain ⟨_, failed, -⟩ := he
    cases failed

end Returns

namespace Retention

/-! ## Stores that others use too -/

/-- what is known of the items in a store -/
structure Holdings (σ Item : Type) where
  /-- the store answers as it should, and holds no items but those it had -/
  sound : σ → Prop
  /-- the expired items that are there -/
  expired : σ → Finset Item
  /-- an item is there, and is not to be deleted -/
  fresh : Item → σ → Prop

namespace Holdings

variable {I : Interface} {σ Item : Type} {K : Holdings σ Item} {serve : (c : I.Call) → σ → I.Reply c × σ}
  {s t u : σ × Nat} {n m : Nat}

/-- expired items may be gone, and none has come -/
structure Loses (K : Holdings σ Item) (s t : σ) : Prop where
  sound : K.sound t
  sub : K.expired t ⊆ K.expired s

/-- since a moment, the cleaner deleted so many expired items, and others as many as were counted -/
structure Reduced (K : Holdings σ Item) (n : Nat) (s t : σ × Nat) : Prop extends K.Loses s.1 t.1 where
  number : t.2 + n + (K.expired t.1).card = s.2 + (K.expired s.1).card

theorem Reduced.refl (sound : K.sound s.1) : K.Reduced 0 s s :=
  ⟨⟨sound, Finset.Subset.refl _⟩, rfl⟩

theorem Reduced.trans (h : K.Reduced n s t) (h' : K.Reduced m t u) : K.Reduced (n + m) s u := by
  refine ⟨⟨h'.sound, h'.sub.trans h.sub⟩, ?_⟩
  have before := h.number
  have after := h'.number
  omega

variable [DecidableEq Item]

/-- no call of a cleaner may delete an item that is not to be deleted. After each call others may delete items, and the
expired ones among them are counted beside the store. -/
def shared (K : Holdings σ Item) (serve : (c : I.Call) → σ → I.Reply c × σ) : Protocol I (σ × Nat) where
  allows c s := ∀ x, K.fresh x s.1 → K.fresh x (serve c s.1).2
  leads c s r t := r = (serve c s.1).1 ∧ K.Loses (serve c s.1).2 t.1 ∧
    t.2 = s.2 + (K.expired (serve c s.1).2 \ K.expired t.1).card

/-- **One call of a cleaner,** and what others do then -/
theorem follows_call {α : Type} {call : I.Call} {reply : I.Reply call} {v : σ} {f : I.Reply call → Prog I α}
    {Q : Except Failure α → σ × Nat → Prop} (answered : serve call s.1 = (reply, v))
    (spared : ∀ x, K.fresh x s.1 → K.fresh x v)
    (next : ∀ t, K.Reduced 0 (v, s.2) t → (f reply).Follows (K.shared serve) Q t) :
    (Prog.ask call >>= f).Follows (K.shared serve) Q s := by
  obtain ⟨rfl, rfl⟩ : reply = (serve call s.1).1 ∧ v = (serve call s.1).2 := by rw [answered]; exact ⟨rfl, rfl⟩
  refine ⟨spared, ?_⟩
  rintro r t ⟨rfl, loses, number⟩
  refine next t ⟨loses, ?_⟩
  have parts := Finset.card_sdiff_add_card_eq_card loses.sub
  dsimp only
  omega

theorem follows_look {α : Type} {call : I.Call} {reply : I.Reply call} {f : I.Reply call → Prog I α}
    {Q : Except Failure α → σ × Nat → Prop} (answered : serve call s.1 = (reply, s.1))
    (next : ∀ t, K.Reduced 0 s t → (f reply).Follows (K.shared serve) Q t) :
    (Prog.ask call >>= f).Follows (K.shared serve) Q s :=
  follows_call answered (fun _ => id) next

/-- an item that is erased is gone for good, and the cleaner deleted one more -/
theorem Reduced.of_erase {v : σ} {x : Item} (h : K.Reduced n (v, s.2) t) (hx : x ∈ K.expired s.1)
    (erased : K.expired v = (K.expired s.1).erase x) : K.Reduced (n + 1) s t ∧ x ∉ K.expired t.1 := by
  have sub : K.expired t.1 ⊆ (K.expired s.1).erase x := erased ▸ h.sub
  have number := h.number
  have one := Finset.card_erase_add_one hx
  rw [← erased] at one
  refine ⟨⟨⟨h.sound, sub.trans (Finset.erase_subset x _)⟩, ?_⟩, fun still => Finset.notMem_erase x _ (sub still)⟩
  dsimp only at number
  omega

end Holdings

/-- the oldest of some rows are as many as were asked for, or all -/
theorem page_of_rows {α : Type} [DecidableEq α] (time : α → Time.Timestamp) {rows : List α} (once : rows.Nodup) (n : Nat) :
    ((oldestFirst time rows).take n).Nodup ∧ ((oldestFirst time rows).take n).toFinset ⊆ rows.toFinset ∧
      ((oldestFirst time rows).take n).length = min n rows.toFinset.card := by
  have sorted := oldestFirst_perm time rows
  refine ⟨(sorted.nodup_iff.2 once).sublist (List.take_sublist n _), fun x hx => ?_, ?_⟩
  · exact List.mem_toFinset.2 (sorted.mem_iff.1 (List.mem_of_mem_take (List.mem_toFinset.1 hx)))
  · rw [List.length_take, sorted.length_eq, List.toFinset_card_of_nodup once]

/-! ## Runs -/

section Runs

variable {I : Interface} {σ : Type} {serve : (c : I.Call) → σ → I.Reply c × σ} {c : Cleaner I}
  [DecidableEq c.items.Item] {cutoff : Time.Timestamp} {K : Holdings σ c.items.Item} {s : σ × Nat}

/-- what a cleaner relies on: its items are counted, given and described as they are, a page holds as many as it can, and
an item that was there at some time is deleted, with a reply that says whether it still was. Others may delete items after
each call that this takes. -/
structure Cleaner.Fits (c : Cleaner I) [DecidableEq c.items.Item] (K : Holdings σ c.items.Item)
    (serve : (c : I.Call) → σ → I.Reply c × σ) (cutoff : Time.Timestamp) : Prop where
  count : ∀ s : σ × Nat, K.sound s.1 → (c.items.count cutoff).Follows (K.shared serve)
    (Returns fun total t => total = (K.expired s.1).card ∧ K.Reduced 0 s t) s
  fetch : ∀ s : σ × Nat, K.sound s.1 → (c.items.fetchPage cutoff c.pageSize).Follows (K.shared serve)
    (Returns fun page t => (page.Nodup ∧ page.toFinset ⊆ K.expired s.1 ∧
      page.length = min c.pageSize (K.expired s.1).card) ∧ K.Reduced 0 s t) s
  describe : ∀ (x : c.items.Item) (s : σ × Nat), K.sound s.1 →
    (c.items.describe x).Follows (K.shared serve) (Returns fun _ t => K.Reduced 0 s t) s
  delete : ∀ (x : c.items.Item) (s : σ × Nat), K.sound s.1 → (∃ u, K.sound u ∧ x ∈ K.expired u) →
    (c.items.deleteOne x).Follows (K.shared serve)
      (Returns fun there t => K.Reduced there.toNat s t ∧ x ∉ K.expired t.1) s

namespace Cleaner.Fits

/-- one item is deleted, or was gone -/
theorem deleteSafely_follows (h : c.Fits K serve cutoff) (sound : K.sound s.1) {x : c.items.Item}
    (known : ∃ u, K.sound u ∧ x ∈ K.expired u) : (c.deleteSafely x).Follows (K.shared serve)
      (Returns fun there t => K.Reduced there.toNat s t ∧ x ∉ K.expired t.1) s := by
  rw [Cleaner.deleteSafely]
  refine (h.describe x s sound).returns fun text t ht => ?_
  rw [Prog.follows_record_bind]
  refine (Prog.Follows.attempt ?_).returns (J := fun r u => ∃ there : Bool, r = .ok there ∧
    K.Reduced there.toNat s u ∧ x ∉ K.expired u.1) ?_
  · refine (h.delete x t ht.sound known).mono fun r u hu => ?_
    obtain ⟨there, rfl, reduced, gone⟩ := hu
    have reduced := ht.trans reduced
    rw [Nat.zero_add] at reduced
    exact ⟨_, rfl, there, rfl, reduced, gone⟩
  · rintro _ u ⟨there, rfl, hu⟩
    cases there with
    | true => exact ⟨true, rfl, hu⟩
    | false => exact ⟨false, rfl, hu⟩

/-- **After its page an item is gone,** whoever deleted it. -/
theorem deleteEach_follows (h : c.Fits K serve cutoff) (k : Nat) (sound : K.sound s.1) {page : List c.items.Item}
    (known : ∀ x ∈ page, ∃ u, K.sound u ∧ x ∈ K.expired u) : (c.deleteEach k page).Follows (K.shared serve)
      (Returns fun k' t => ∃ n, k' = k + n ∧ K.Reduced n s t ∧ ∀ x ∈ page, x ∉ K.expired t.1) s := by
  refine Prog.Follows.foldlM (fun rest k' t => rest ⊆ page ∧ ∃ n, k' = k + n ∧ K.Reduced n s t ∧
    ∀ x ∈ page, x ∈ K.expired t.1 → x ∈ rest) (fun x rest k' t ht => ?_) (fun k' t ht => ?_) page k s
    ⟨List.Subset.refl page, 0, rfl, .refl sound, fun _ hx _ => hx⟩
  · obtain ⟨sub, n, rfl, reduced, left⟩ := ht
    obtain ⟨here, sub⟩ := List.cons_subset.1 sub
    refine (h.deleteSafely_follows reduced.sound (known x here)).returns fun there u hu => ?_
    obtain ⟨reduced', gone⟩ := hu
    refine ⟨sub, n + there.toNat, by cases there <;> rfl, reduced.trans reduced', fun y hy still => ?_⟩
    -- what is left after this item was left before it, and is another one
    refine (List.mem_cons.1 (left y hy (reduced'.sub still))).resolve_left fun same => ?_
    exact gone (same ▸ still)
  · obtain ⟨-, n, rfl, reduced, left⟩ := ht
    exact ⟨_, rfl, n, rfl, reduced, fun x hx still => List.not_mem_nil (left x hx still)⟩

/-- **A page takes its full number of items away,** or all that are left. -/
theorem deletePage_follows (h : c.Fits K serve cutoff) (k : Nat) (sound : K.sound s.1) :
    (c.deletePage cutoff k).Follows (K.shared serve) (Returns fun k' t => ∃ n, k' = k + n ∧ K.Reduced n s t ∧
      (K.expired t.1).card ≤ (K.expired s.1).card - c.pageSize) s := by
  rw [Cleaner.deletePage]
  refine (h.fetch s sound).returns fun page t ht => ?_
  obtain ⟨⟨once, sub, size⟩, fetched⟩ := ht
  refine (h.deleteEach_follows k fetched.sound fun x hx =>
    ⟨s.1, sound, sub (List.mem_toFinset.2 hx)⟩).mono fun r u hu => ?_
  obtain ⟨_, rfl, n, rfl, deleted, gone⟩ := hu
  have reduced := fetched.trans deleted
  rw [Nat.zero_add] at reduced
  refine ⟨_, rfl, n, rfl, reduced, ?_⟩
  have left : K.expired u.1 ⊆ K.expired s.1 \ page.toFinset := by
    intro x hx
    exact Finset.mem_sdiff.2 ⟨reduced.sub hx, fun fetched => gone x (List.mem_toFinset.1 fetched) hx⟩
  have fewer := Finset.card_le_card left
  rw [Finset.card_sdiff_of_subset sub, List.toFinset_card_of_nodup once, size] at fewer
  omega

/-- so many pages take all items away that they can hold -/
theorem deletePages_follows (h : c.Fits K serve cutoff) (pages k : Nat) (sound : K.sound s.1) :
    (c.deletePages cutoff pages k).Follows (K.shared serve) (Returns fun k' t => ∃ n, k' = k + n ∧ K.Reduced n s t ∧
      (K.expired t.1).card ≤ (K.expired s.1).card - pages * c.pageSize) s := by
  induction pages generalizing k s with
  | zero => exact ⟨k, rfl, 0, rfl, .refl sound, by omega⟩
  | succ pages ih =>
    rw [Cleaner.deletePages]
    refine (h.deletePage_follows k sound).returns fun k' t ht => ?_
    obtain ⟨n, rfl, reduced, fewer⟩ := ht
    refine (ih (k + n) reduced.sound).mono fun r u hu => ?_
    obtain ⟨_, rfl, m, rfl, reduced', fewer'⟩ := hu
    refine ⟨_, rfl, n + m, Nat.add_assoc k n m, reduced.trans reduced', fewer'.trans ?_⟩
    rw [Nat.add_mul]
    omega

end Cleaner.Fits

/-- **A run tolerates deletions by others.** Let a cleaner run with pages of a size that can be asked for, over a store of
fewer items than would have to be rounded, and let others delete items after any of its calls. No call of it deletes an item
that has not expired. It ends well, no expired item is left then, and the number it gives and the number of expired items
that others deleted since it counted add up to its count. -/
theorem execute_shared (h : c.Fits K serve cutoff) {s : σ} (sound : K.sound s)
    (few : (K.expired s).card < 2 ^ 53) (short : c.pageSize < 2 ^ 63) :
    (c.execute cutoff).Follows (K.shared serve) (fun r t =>
      ∃ n, r = .ok n ∧ K.expired t.1 = ∅ ∧ n + t.2 = (K.expired s).card) (s, 0) := by
  rw [Cleaner.execute, Prog.follows_record_bind]
  refine (h.count (s, 0) sound).returns fun total t ht => ?_
  obtain ⟨rfl, counted⟩ := ht
  rw [pages_eq few short, Prog.ofExcept_ok_bind, Prog.follows_record_bind, Int.toNat_natCast]
  refine (h.deletePages_follows _ 0 counted.sound).returns fun k u hu => ?_
  obtain ⟨n, rfl, deleted, fewer⟩ := hu
  rw [Prog.follows_record_bind]
  -- the pages hold all items that were counted, and no more are there after the count
  have fits : (K.expired s).card ≤ ((K.expired s).card ⌈/⌉ c.pageSize) * c.pageSize := by
    rw [Nat.mul_comm]
    exact le_smul_ceilDiv c.positive
  have since := Finset.card_le_card counted.sub
  have cleared : (K.expired u.1).card = 0 := by
    dsimp only at since
    omega
  have number := (counted.trans deleted).number
  refine ⟨0 + n, rfl, Finset.card_eq_zero.1 cleared, ?_⟩
  dsimp only at number
  omega

end Runs

/-! ## Executions -/

section Executions

open World Execution ExecutionTable

variable {cutoff utc : Time.Timestamp} {w t u : World} {n : Nat} {x : Execution}

instance (site : Site) (h : 0 < n) : DecidableEq (Kind.executions.cleaner site n h).items.Item :=
  inferInstanceAs (DecidableEq Execution)

/-- the executions of a world of which some may be gone; those in no tree of an expired one are to stay -/
def executionHoldings (cutoff : Time.Timestamp) (w : World) : Holdings World Execution where
  sound t := Calm t ∧ t.executions.rows ⊆ w.executions.rows
  expired t := (t.executions.expired cutoff).toFinset
  fresh e t := e ∈ t.executions.rows ∧ ∀ x ∈ t.executions.expired cutoff, ¬Below t.executions.rows x.id e.id

theorem executions_lose (sound : (executionHoldings cutoff w).sound t) (calm : Calm u)
    (less : u.executions.rows ⊆ t.executions.rows) : (executionHoldings cutoff w).Loses t u := by
  refine ⟨⟨calm, List.Subset.trans less sound.2⟩, fun x hx => ?_⟩
  exact List.mem_toFinset.2 (List.filter_subset _ less (List.mem_toFinset.1 hx))

theorem expired_nodup (table : ExecutionTable) : (table.expired cutoff).Nodup :=
  List.Nodup.of_map _ (table.distinct.sublist (List.filter_sublist.map _))

theorem calm_removeExecution_gone (calm : Calm t) {id : String} (gone : id ∉ t.executions.rows.map (·.id)) :
    World.serve (.deleteExecution id) t = (.ok 0, t) := by
  have unmatched : t.executions.rows.any (·.id == id) = false := by simpa using gone
  rw [World.serve, deleteExecution, statement_calm calm.strikes, if_neg (by simp [unmatched])]

/-- with the tree of an expired execution no other one of these goes -/
theorem expired_erase {table : ExecutionTable} (hx : x ∈ table.expired cutoff) :
    ((table.remove (treeLevels table.rows x.id).flatten).expired cutoff).toFinset =
      (table.expired cutoff).toFinset.erase x := by
  ext e
  rw [Finset.mem_erase, List.mem_toFinset, List.mem_toFinset, expired_remove hx, List.mem_filter, and_comm]
  refine and_congr_left fun he => ?_
  have own : e.id = x.id ↔ e = x :=
    ⟨List.inj_on_of_nodup_map table.distinct (List.mem_of_mem_filter he) (List.mem_of_mem_filter hx), congrArg _⟩
  simp [own]

/-- what is in no tree of an expired execution stays when one of these trees goes -/
theorem fresh_remove {e : Execution} (hx : x ∈ t.executions.expired cutoff) (he : (executionHoldings cutoff w).fresh e t) :
    (executionHoldings cutoff w).fresh e
      { t with executions := t.executions.remove (treeLevels t.executions.rows x.id).flatten } := by
  have there : x.id ∈ t.executions.rows.map (·.id) := List.mem_map_of_mem (List.mem_of_mem_filter hx)
  have fewer : (t.executions.remove (treeLevels t.executions.rows x.id).flatten).rows ⊆ t.executions.rows :=
    List.filter_subset_self _
  refine ⟨(mem_remove_tree there).2 ⟨he.1, he.2 x hx⟩, fun y hy below => ?_⟩
  exact he.2 y (List.filter_subset _ fewer hy) (below.mono fewer)

/-- **The cleaner for executions tolerates deletions by others.** -/
theorem executions_fit (site : Site) (dated : cutoff.toUtc? = some utc) (h : 0 < n) (short : n ≤ maxLimit) (w : World) :
    (Kind.executions.cleaner site n h).Fits (executionHoldings cutoff w) serve cutoff where
  count s hs := by
    show (Files.inUtc cutoff >>= fun utc => Op.ask (.countExecutions utc) >>= fun reply => Prog.ofReply reply >>= fun n =>
      pure (n : Int)).Follows _ _ _
    rw [inUtc_eq dated, LawfulMonad.pure_bind]
    refine Holdings.follows_look (unstruck_countExecutions hs.1.strikes utc) fun t ht => ⟨_, rfl, ?_, ht⟩
    rw [expired_utc dated, ← List.toFinset_card_of_nodup (expired_nodup _)]
    rfl
  fetch s hs := by
    show (pageOf cutoff n fun utc n => do Prog.ofReply (← Op.ask (.pageExecutions utc n)) : Op (List Execution)).Follows
      _ _ _
    rw [pageOf_eq dated h]
    refine Holdings.follows_look (unstruck_pageExecutions hs.1.strikes utc short) fun t ht => ⟨_, rfl, ?_, ht⟩
    rw [expired_utc dated]
    exact page_of_rows _ (expired_nodup _) n
  describe x s hs := ⟨x.description, rfl, .refl hs⟩
  delete x s hs known := by
    obtain ⟨v, hv, hx⟩ := known
    obtain ⟨row, expired⟩ := List.mem_filter.1 (List.mem_toFinset.1 hx)
    show (Op.ask (.deleteExecution x.id) >>= fun reply => Prog.ofReply reply >>= fun n =>
      pure (0 < n : Bool)).Follows _ _ _
    by_cases there : x.id ∈ s.1.executions.rows.map (·.id)
    case pos =>
      -- the row of this id is the item itself, since none has come
      obtain ⟨y, hy, same⟩ := List.mem_map.1 there
      obtain rfl := List.inj_on_of_nodup_map w.executions.distinct (hs.2 hy) (hv.2 row) same
      have hy : y ∈ s.1.executions.expired cutoff := List.mem_filter.2 ⟨hy, expired⟩
      refine Holdings.follows_call (calm_removeExecution hs.1 there) (fun e he => fresh_remove hy he) fun t ht => ?_
      refine ⟨true, congrArg Except.ok (decide_eq_true (length_treeLevels_pos there)), ?_⟩
      exact ht.of_erase (List.mem_toFinset.2 hy) (expired_erase hy)
    case neg =>
      refine Holdings.follows_look (calm_removeExecution_gone hs.1 there) fun t ht => ⟨false, rfl, ht, fun still => ?_⟩
      have left := List.mem_of_mem_filter (List.mem_toFinset.1 (ht.sub still))
      exact there (List.mem_map_of_mem left)

/-- two executions that expired, one of them with an execution in its tree -/
def twoDue : World :=
  let time (days : Int) : Time.Timestamp := (World.start.add? (-(days * Time.day))).getD World.start
  let execution (id : String) (parent : Option String) (ended : Option Time.Timestamp) : Execution :=
    ⟨id, parent, "def", "s", time 30, ended⟩
  { World.fresh with
    executions := ⟨[execution "1" none (some (time 29)), execution "2" (some "1") none,
      execution "3" none (some (time 29))], by decide⟩ }

/-- one of the two may be gone right after they were counted -/
theorem execute_shared_twoDue :
    let c := Kind.executions.cleaner (.standard .top) 1 Nat.one_pos
    let K := executionHoldings World.start twoDue
    (K.sound twoDue ∧ (K.expired twoDue).card = 2) ∧
    (∃ r t, (K.shared (I := service) serve).leads (Call.countExecutions World.start) (twoDue, 0) r (t, 1)) ∧
    (c.execute World.start).Follows (K.shared serve) (fun r t => ∃ n, r = .ok n ∧ K.expired t.1 = ∅ ∧ n + t.2 = 2)
      (twoDue, 0) := by
  intro c K
  have calm : Calm twoDue := ⟨rfl, rfl, rfl⟩
  have sound : K.sound twoDue := ⟨calm, List.Subset.refl _⟩
  have dated : World.start.toUtc? = some World.start := by decide +kernel
  have two : (K.expired twoDue).card = 2 := by decide +kernel
  have short : 1 ≤ World.maxLimit := by decide +kernel
  have fit : c.Fits K serve World.start := executions_fit (.standard .top) dated Nat.one_pos short twoDue
  refine ⟨⟨sound, two⟩, ?_, ?_⟩
  · refine ⟨_, { twoDue with executions := twoDue.executions.remove ["3"] }, rfl, ?_, ?_⟩
    · rw [unstruck_countExecutions calm.strikes]
      exact executions_lose sound ⟨rfl, rfl, rfl⟩ (List.filter_subset_self _)
    · rw [unstruck_countExecutions calm.strikes]
      decide +kernel
  · have few : (K.expired twoDue).card < 2 ^ 53 := by
      rw [two]
      decide
    rw [← two]
    exact execute_shared fit sound few (by decide)

end Executions

/-! ## Files -/

section Files

open World

variable {cutoff utc : Time.Timestamp} {w t u : World} {n : Nat} {site : Site} {x e : Entry}

instance (site : Site) (h : 0 < n) : DecidableEq (Kind.files.cleaner site n h).items.Item :=
  inferInstanceAs (DecidableEq Entry)

/-- the files of a world of which some may be gone -/
def fileHoldings (cutoff : Time.Timestamp) (w : World) : Holdings World Entry where
  sound t := Calm t ∧ t.bucket.isSome = true ∧ t.files.rows ⊆ w.files.rows
  expired t := (t.files.select (.before cutoff)).toFinset
  fresh e t := e ∈ t.files.rows ∧ cutoff.instant ≤ e.modified.instant

theorem files_lose (sound : (fileHoldings cutoff w).sound t) (calm : Calm u) (bucket : u.bucket.isSome = true)
    (less : u.files.rows ⊆ t.files.rows) : (fileHoldings cutoff w).Loses t u := by
  refine ⟨⟨calm, bucket, List.Subset.trans less sound.2.2⟩, fun x hx => ?_⟩
  exact List.mem_toFinset.2 (List.filter_subset _ less (List.mem_toFinset.1 hx))

theorem select_nodup (table : FileTable) (q : FileQuery) : (table.select q).Nodup :=
  List.Nodup.of_map _ (table.distinct.sublist (List.filter_sublist.map _))

theorem select_erase {table : FileTable} (hx : x ∈ table.select (.before cutoff)) :
    ((table.remove (.file x.space x.id)).select (.before cutoff)).toFinset =
      (table.select (.before cutoff)).toFinset.erase x := by
  have row := List.mem_of_mem_filter hx
  ext e
  rw [Finset.mem_erase, List.mem_toFinset, List.mem_toFinset, select_without row, List.mem_filter, and_comm]
  refine and_congr_left fun he => ?_
  have own : e.id = x.id ↔ e = x :=
    ⟨List.inj_on_of_nodup_map table.distinct (List.mem_of_mem_filter he) row, congrArg _⟩
  simp [own]

theorem holds_gone {table : FileTable} (sub : table.rows ⊆ w.files.rows) (hx : x ∈ w.files.rows) (gone : x ∉ table.rows) :
    ∀ e ∈ table.rows, (FileQuery.file x.space x.id).holds e = false := by
  intro e he
  rw [holds_file w.files hx (sub he), decide_eq_false_iff_not]
  intro same
  exact gone (List.inj_on_of_nodup_map w.files.distinct hx (sub he) same.symm ▸ he)

variable {s : World × Nat}

/-- the content of a file is removed, if there is one -/
theorem content_follows (hs : (fileHoldings cutoff w).sound s.1) {key : String}
    (hkey : site.location.key x.space x.id = .ok key) (hne : key ≠ "") :
    (Content.delete site x.space x.id).Follows ((fileHoldings cutoff w).shared serve)
      (Returns fun _ t => (fileHoldings cutoff w).Reduced 0 s t) s := by
  obtain ⟨b, hb⟩ := Option.isSome_iff_exists.1 hs.2.1
  rw [Content.delete, hkey, Prog.ofExcept_ok_bind]
  refine Op.follows_account ?_ fun _ _ _ => ?_
  · rw [Prog.follows_record_bind]
    refine Holdings.follows_call (unstruck_deleteObject hs.1.strikes hb hne) (fun e he => he) fun t ht => ?_
    exact ⟨_, rfl, ⟨ht.sound, ht.sub⟩, ht.number⟩
  · rintro ⟨_, failed, -⟩
    cases failed

theorem row_follows (hs : (fileHoldings cutoff w).sound s.1) (hx : x ∈ w.files.select (.before cutoff)) :
    (Files.statement (.deleteEntry x.id) (Files.remove (.file x.space x.id))).Follows
      ((fileHoldings cutoff w).shared serve)
      (Returns fun n t => n ≤ 1 ∧ (fileHoldings cutoff w).Reduced n s t ∧ x ∉ (fileHoldings cutoff w).expired t.1) s := by
  obtain ⟨row, old⟩ := List.mem_filter.1 hx
  refine Op.follows_account ?_ fun _ _ _ => ?_
  · show (Op.ask (.deleteFiles (.file x.space x.id)) >>= fun r => Prog.ofReply r : Op Nat).Follows _ _ _
    have answered := calm_deleteFiles hs.1 (.file x.space x.id)
    by_cases there : x ∈ s.1.files.rows
    case pos =>
      have hx : x ∈ s.1.files.select (.before cutoff) := List.mem_filter.2 ⟨there, old⟩
      have own : x ∈ s.1.files.select (.file x.space x.id) :=
        List.mem_filter.2 ⟨there, by rw [holds_file w.files row row]; exact decide_eq_true rfl⟩
      have one : (s.1.files.select (.file x.space x.id)).length = 1 :=
        le_antisymm (s.1.files.length_select_file x.space x.id) (List.length_pos_of_mem own)
      rw [one] at answered
      refine Holdings.follows_call answered (fun e he => ?_) fun t ht => ⟨1, rfl, le_refl 1, ?_⟩
      · refine ⟨FileTable.mem_remove.2 ⟨he.1, ?_⟩, he.2⟩
        rw [holds_file w.files row (hs.2.2 he.1), decide_eq_false_iff_not]
        intro same
        obtain rfl := List.inj_on_of_nodup_map w.files.distinct (hs.2.2 he.1) row same
        exact absurd (of_decide_eq_true old) (not_lt.2 he.2)
      · exact ht.of_erase (List.mem_toFinset.2 hx) (select_erase hx)
    case neg =>
      have unmatched := holds_gone hs.2.2 row there
      have nobody : s.1.files.select (.file x.space x.id) = [] :=
        List.filter_eq_nil_iff.2 fun e he => by simp [unmatched e he]
      have same : s.1.files.remove (.file x.space x.id) = s.1.files :=
        FileTable.eq_of_rows (List.filter_eq_self.2 fun e he => by simp [unmatched e he])
      rw [nobody, same] at answered
      refine Holdings.follows_look answered fun t ht => ⟨0, rfl, Nat.zero_le 1, ht, fun still => ?_⟩
      exact there (List.mem_of_mem_filter (List.mem_toFinset.1 (ht.sub still)))
  · rintro ⟨_, failed, -⟩
    cases failed

/-- **The cleaner for files tolerates deletions by others,** also between the removal of a content and that of its row. -/
theorem files_fit (dated : cutoff.toUtc? = some utc) (h : 0 < n) (short : n ≤ maxLimit) (w : World)
    (named : ∀ e ∈ w.files.rows, ∃ key, site.location.key e.space e.id = .ok key ∧ key ≠ "") :
    (Kind.files.cleaner site n h).Fits (fileHoldings cutoff w) serve cutoff where
  count s hs := by
    have prepared : Files.prepare (.before cutoff) = pure (.before utc) := by
      rw [Files.prepare, inUtc_eq dated, LawfulMonad.pure_bind]
    show (Files.count (.before cutoff) >>= fun n => pure (n : Int)).Follows _ _ _
    rw [Files.count, prepared, LawfulMonad.pure_bind, LawfulMonad.bind_assoc]
    refine Holdings.follows_look (unstruck_countFiles hs.1.strikes _) fun t ht => ⟨_, rfl, ?_, ht⟩
    rw [select_utc dated, ← List.toFinset_card_of_nodup (select_nodup _ _)]
    rfl
  fetch s hs := by
    show (pageOf cutoff n fun utc n => do Prog.ofReply (← Op.ask (.pageFiles (.before utc) n)) : Op (List Entry)).Follows
      _ _ _
    rw [pageOf_eq dated h]
    refine Holdings.follows_look (unstruck_pageFiles hs.1.strikes _ short) fun t ht => ⟨_, rfl, ?_, ht⟩
    rw [select_utc dated]
    exact page_of_rows _ (select_nodup _ _) n
  describe x s hs := ⟨x.description, rfl, .refl hs⟩
  delete x s hs known := by
    obtain ⟨v, hv, hx⟩ := known
    have hx : x ∈ w.files.select (.before cutoff) := List.filter_subset _ hv.2.2 (List.mem_toFinset.1 hx)
    obtain ⟨key, hkey, hne⟩ := named x (List.mem_of_mem_filter hx)
    show (Files.delete site x.space x.id).Follows _ _ _
    rw [Files.delete]
    refine (content_follows hs hkey hne).returns fun _ t ht => ?_
    refine (row_follows ht.sound hx).returns fun n u hu => ?_
    obtain ⟨few, reduced, gone⟩ := hu
    have reduced := ht.trans reduced
    rw [Nat.zero_add] at reduced
    rw [Prog.follows_record_bind]
    interval_cases n
    · exact ⟨false, rfl, reduced, gone⟩
    · exact ⟨true, rfl, reduced, gone⟩

end Files

end Retention

end Depot
