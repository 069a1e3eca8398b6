/-
Executions and files as stocks.

Without faults, an expired execution goes with its tree (`executionStock`), and an expired file with its content
(`fileStock`); what is locked stays, an execution also if a row of its tree is. So it can be read off the rows what a run
of a cleaner deletes, as long as their number is small enough for the pages to be counted:
- `executions_complete_iff`, `files_complete_iff`: a run deletes all that can be deleted, and tries each of the others
  once, if and only if these are on the last page;
- `Stock.execute_all`: where nothing is locked, it deletes all.
-/
import Depot.Proofs.Completion
import Depot.Proofs.Keys
import Depot.Proofs.Quotients
import Depot.Proofs.Retention
import Depot.Proofs.Trees

namespace Depot

theorem oldestFirst_perm {α : Type} (time : α → Time.Timestamp) (rows : List α) : (oldestFirst time rows).Perm rows := by
  have sorted := (List.mergeSort_perm (rows.map fun r => ((time r).instant, r)) fun a b => a.1 ≤ b.1).map (·.2)
  have back : (rows.map fun r => ((time r).instant, r)).map (·.2) = rows := by
    rw [List.map_map]
    exact List.map_id rows
  rwa [back] at sorted

namespace Retention

open World

section Order

variable {α : Type} {time : α → Time.Timestamp} {rows before after : List α}

theorem oldestFirst_filter (p : α → Bool) : oldestFirst time (rows.filter p) = (oldestFirst time rows).filter p := by
  have trans : ∀ a b c : Int × α, decide (a.1 ≤ b.1) = true → decide (b.1 ≤ c.1) = true → decide (a.1 ≤ c.1) = true := by
    intro a b c hab hbc
    simp only [decide_eq_true_eq] at hab hbc ⊢
    exact hab.trans hbc
  have total : ∀ a b : Int × α, (decide (a.1 ≤ b.1) || decide (b.1 ≤ a.1)) = true := by
    intro a b
    simp only [Bool.or_eq_true, decide_eq_true_eq]
    exact Int.le_total a.1 b.1
  have pairs : (rows.filter p).map (fun r => ((time r).instant, r)) =
      (rows.map fun r => ((time r).instant, r)).filter fun x => p x.2 := by
    rw [List.filter_map]
    rfl
  unfold oldestFirst
  rw [pairs, mergeSort_filter trans total, List.filter_map]
  rfl

/-- **Without one of several rows that are told apart,** the others keep their order. -/
theorem oldestFirst_without {label : α → String} (apart : (rows.map label).Nodup) {x : α}
    (h : oldestFirst time rows = before ++ x :: after) :
    oldestFirst time (rows.filter fun y => label y ≠ label x) = before ++ after := by
  rw [oldestFirst_filter]
  exact filter_of_split (((oldestFirst_perm time rows).map label).nodup_iff.2 apart) h

theorem mem_of_split {x : α} (h : oldestFirst time rows = before ++ x :: after) : x ∈ rows := by
  apply (oldestFirst_perm time rows).mem_iff.1
  rw [h]
  exact List.mem_append_right _ List.mem_cons_self

end Order

/-! ## Runs that delete everything -/

section Runs

variable {I : Interface} {σ : Type} {serve : (c : I.Call) → σ → I.Reply c × σ} {c : Cleaner I} {n : Nat}

theorem pages_eq (few : n < 2 ^ 53) (short : c.pageSize < 2 ^ 63) : c.pages n = .ok ((n ⌈/⌉ c.pageSize : Nat) : Int) :=
  pages_of_ceil (Number.ceil?_eq few c.positive short)

/-- as many pages as the items fill hold all of them -/
theorem le_pages_mul (c : Cleaner I) (n : Nat) : n ≤ n ⌈/⌉ c.pageSize * c.pageSize := by
  rw [Nat.mul_comm]
  exact le_smul_ceilDiv c.positive

/-- **A run deletes all expired items** where every one can be deleted. -/
theorem Stock.execute_all {cutoff : Time.Timestamp} (K : Stock serve c cutoff) (goes : K.stays = fun _ => false) {s : σ}
    (hs : K.sound s) (few : (K.expired s).length < 2 ^ 53) (short : c.pageSize < 2 ^ 63) (events : List Event) :
    (c.execute cutoff).Ends serve (fun r t _ => r = .ok (K.expired s).length ∧ K.sound t ∧ K.expired t = []) s events := by
  have empty := leftAfter_none _ (le_pages_mul c (K.expired s).length)
  refine (K.execute_ends hs (pages_eq few short) events).mono ?_
  intro r t _ ⟨deleted, ht, remains, _⟩
  rw [goes, Int.toNat_natCast, empty] at deleted remains
  exact ⟨deleted, ht, remains⟩

/-- **A run keeps its promise if and only if the items that stay are on the last page,** where the pages can be counted. -/
theorem Stock.execute_complete_iff_last {cutoff : Time.Timestamp} (K : Stock serve c cutoff) {s : σ} (hs : K.sound s)
    (apart : ((K.expired s).map K.label).Nodup) (few : (K.expired s).length < 2 ^ 53) (short : c.pageSize < 2 ^ 63) :
    K.Complete s ((c.execute cutoff).run serve s) ↔
      ∀ x ∈ (K.expired s).take (((K.expired s).length ⌈/⌉ c.pageSize - 1) * c.pageSize), K.stays x = false := by
  rw [K.execute_complete_iff hs apart, pages_eq few short]
  constructor
  · rintro ⟨pages, same, -, last⟩
    cases same
    exact last
  · intro last
    exact ⟨_, rfl, le_pages_mul c _, last⟩

end Runs

/-! ## Statements -/

section Statements

variable {w t : World} {cutoff utc : Time.Timestamp} {n : Nat} {events : List Event}

theorem inUtc_eq (dated : cutoff.toUtc? = some utc) : Files.inUtc cutoff = pure utc := by
  unfold Files.inUtc
  rw [dated]

/-- a page of at least one row is asked for by one call -/
theorem pageOf_eq {α : Type} (dated : cutoff.toUtc? = some utc) (hn : 0 < n) (ask : Time.Timestamp → Nat → Op (List α)) :
    pageOf cutoff n ask = ask utc n := by
  unfold pageOf
  rw [if_neg (by omega), inUtc_eq dated, LawfulMonad.pure_bind, if_neg (by omega), Int.toNat_natCast]

theorem expired_utc (dated : cutoff.toUtc? = some utc) (t : ExecutionTable) : t.expired utc = t.expired cutoff := by
  have same : ∀ e : Execution, e.isExpired utc = e.isExpired cutoff := by
    intro e
    unfold Execution.isExpired
    rw [Time.Timestamp.instant_toUtc? dated]
  unfold ExecutionTable.expired
  rw [funext same]

theorem select_utc (dated : cutoff.toUtc? = some utc) (t : FileTable) :
    t.select (.before utc) = t.select (.before cutoff) := by
  apply List.filter_congr
  intro e _
  show decide (e.modified.instant < utc.instant) = decide (e.modified.instant < cutoff.instant)
  rw [Time.Timestamp.instant_toUtc? dated]

theorem unstruck_count_executions (unstruck : w.strikes = []) (dated : cutoff.toUtc? = some utc) :
    (executions.count cutoff).Ends serve (fun r t more =>
      r = .ok ((w.executions.expired cutoff).length : Int) ∧ t = w ∧ more = events) w events := by
  show (Files.inUtc cutoff >>= fun utc => Op.ask (.countExecutions utc) >>= fun reply => Prog.ofReply reply >>= fun n =>
    pure (n : Int)).Ends _ _ _ _
  rw [inUtc_eq dated, LawfulMonad.pure_bind, Op.ends_ask_bind, unstruck_countExecutions unstruck, expired_utc dated]
  exact ⟨rfl, rfl, rfl⟩

theorem unstruck_page_executions (unstruck : w.strikes = []) (dated : cutoff.toUtc? = some utc) (hn : 0 < n)
    (short : n ≤ maxLimit) :
    (pageOf cutoff n fun utc n => do Prog.ofReply (← Op.ask (.pageExecutions utc n)) : Op (List Execution)).Ends serve
      (fun r t more => r = .ok ((oldestFirst (·.startedAt) (w.executions.expired cutoff)).take n) ∧ t = w ∧
        more = events) w events := by
  rw [pageOf_eq dated hn, Op.ends_ask_bind, unstruck_pageExecutions unstruck utc short, expired_utc dated]
  exact ⟨rfl, rfl, rfl⟩

/-- an execution that is there is deleted with its tree, if no row of this is locked -/
theorem unstruck_delete_execution (unstruck : w.strikes = []) {x : Execution} (hx : x ∈ w.executions.rows)
    (free : w.locksTree x.id = false) :
    (executions.deleteOne x).Ends serve (fun r t more => r = .ok true ∧
      t = { w with executions := w.executions.remove (Execution.treeLevels w.executions.rows x.id).flatten } ∧
      more = events) w events := by
  have there : x.id ∈ w.executions.rows.map (·.id) := List.mem_map_of_mem hx
  have found : decide (0 < (Execution.treeLevels w.executions.rows x.id).flatten.length) = true :=
    decide_eq_true (Execution.length_treeLevels_pos there)
  show (Op.ask (.deleteExecution x.id) >>= fun reply => Prog.ofReply reply >>= fun n => pure (0 < n : Bool)).Ends _ _ _ _
  rw [Op.ends_ask_bind, unstruck_deleteExecution unstruck there, free, if_neg Bool.false_ne_true]
  exact ⟨congrArg Except.ok found, rfl, rfl⟩

/-- an execution with a locked row in its tree stays, and so does the tree -/
theorem unstruck_keep_execution (unstruck : w.strikes = []) {x : Execution} (hx : x ∈ w.executions.rows)
    (locked : w.locksTree x.id = true) :
    (executions.deleteOne x).Ends serve (fun r t more => r = .error (.fault .lockedRow) ∧ t = w ∧ more = events) w
      events := by
  have there : x.id ∈ w.executions.rows.map (·.id) := List.mem_map_of_mem hx
  show (Op.ask (.deleteExecution x.id) >>= fun reply => Prog.ofReply reply >>= fun n => pure (0 < n : Bool)).Ends _ _ _ _
  rw [Op.ends_ask_bind, unstruck_deleteExecution unstruck there, locked, if_pos rfl]
  exact ⟨rfl, rfl, rfl⟩

variable {site : Site}

theorem unstruck_count_files (unstruck : w.strikes = []) (dated : cutoff.toUtc? = some utc) :
    ((files site).count cutoff).Ends serve (fun r t more =>
      r = .ok ((w.files.select (.before cutoff)).length : Int) ∧ t = w ∧ more = events) w events := by
  have prepared : Files.prepare (.before cutoff) = pure (.before utc) := by
    unfold Files.prepare
    dsimp only
    rw [inUtc_eq dated, LawfulMonad.pure_bind]
  show (Files.count (.before cutoff) >>= fun n => pure (n : Int)).Ends _ _ _ _
  unfold Files.count
  rw [prepared, LawfulMonad.pure_bind, LawfulMonad.bind_assoc, Op.ends_ask_bind, unstruck_countFiles unstruck,
    select_utc dated]
  exact ⟨rfl, rfl, rfl⟩

theorem unstruck_page_files (unstruck : w.strikes = []) (dated : cutoff.toUtc? = some utc) (hn : 0 < n)
    (short : n ≤ maxLimit) :
    (pageOf cutoff n fun utc n => do Prog.ofReply (← Op.ask (.pageFiles (.before utc) n)) : Op (List Entry)).Ends serve
      (fun r t more => r = .ok ((oldestFirst (·.modified) (w.files.select (.before cutoff))).take n) ∧ t = w ∧
        more = events) w events := by
  rw [pageOf_eq dated hn, Op.ends_ask_bind, unstruck_pageFiles unstruck _ short, select_utc dated]
  exact ⟨rfl, rfl, rfl⟩

theorem holds_file (table : FileTable) {x e : Entry} (hx : x ∈ table.rows) (he : e ∈ table.rows) :
    (FileQuery.file x.space x.id).holds e = decide (e.id = x.id) := by
  rw [Bool.eq_iff_iff, decide_eq_true_iff]
  constructor
  · intro holds
    simp only [FileQuery.holds, Bool.and_eq_true, beq_iff_eq] at holds
    exact holds.2
  · intro same
    obtain rfl := List.inj_on_of_nodup_map table.distinct he hx same
    simp [FileQuery.holds]

/-- of the rows asked for, the deletion of a file takes its own alone -/
theorem select_without {table : FileTable} {x : Entry} (hx : x ∈ table.rows) (q : FileQuery) :
    (table.remove (.file x.space x.id)).select q = (table.select q).filter (·.id ≠ x.id) := by
  unfold FileTable.remove FileTable.select
  rw [List.filter_filter, List.filter_filter]
  apply List.filter_congr
  intro e he
  rw [holds_file table hx he, Bool.and_comm, decide_not]

/-- the row of a file is the only one that is asked for by its space and id -/
theorem mem_select_file {table : FileTable} {x e : Entry} (hx : x ∈ table.rows) :
    e ∈ table.select (.file x.space x.id) ↔ e = x := by
  constructor
  · intro he
    obtain ⟨row, holds⟩ := List.mem_filter.1 he
    rw [holds_file table hx row, decide_eq_true_iff] at holds
    exact List.inj_on_of_nodup_map table.distinct row hx holds
  · rintro rfl
    exact List.mem_filter.2 ⟨hx, by rw [holds_file table hx hx]; exact decide_eq_true rfl⟩

variable {b : Bucket} {x : Entry} {key : String}

/-- a file that is there is deleted with its content, if its row is not locked -/
theorem unstruck_delete_file (unstruck : w.strikes = []) (hb : w.bucket = some b) (hx : x ∈ w.files.rows)
    (hkey : site.location.key x.space x.id = .ok key) (hne : key ≠ "") (free : w.locked.contains x.id = false) :
    ((files site).deleteOne x).Ends serve (fun r t more => r = .ok true ∧
      t = { w with bucket := some (b.erase [key]), files := w.files.remove (.file x.space x.id) } ∧
      notDeleted more = notDeleted events) w events := by
  have counted : x ∈ w.files.select (.file x.space x.id) := (mem_select_file hx).2 rfl
  have unlocked : ∀ e ∈ w.files.select (.file x.space x.id), w.locked.contains e.id = false := by
    intro e he
    rw [(mem_select_file hx).1 he]
    exact free
  refine (Files.unstruck_delete unstruck hb hkey hne unlocked).mono ?_
  rintro r t more ⟨there, rfl, rfl, rfl, rfl⟩
  refine ⟨?_, rfl, by simp [notDeleted?]⟩
  rw [decide_eq_true (List.length_pos_of_mem counted)]

/-- a file whose row is locked stays, without its content -/
theorem unstruck_keep_file (unstruck : w.strikes = []) (hb : w.bucket = some b) (hx : x ∈ w.files.rows)
    (hkey : site.location.key x.space x.id = .ok key) (hne : key ≠ "") (locked : w.locked.contains x.id = true) :
    ((files site).deleteOne x).Ends serve (fun r t more => (∃ e, r = .error e) ∧
      t = { w with bucket := some (b.erase [key]) } ∧ notDeleted more = notDeleted events) w events := by
  refine (Files.unstruck_delete_locked unstruck hb hkey hne ((mem_select_file hx).2 rfl) locked).mono ?_
  rintro r t more ⟨rfl, rfl, rfl⟩
  exact ⟨⟨_, rfl⟩, rfl, by simp [notDeleted?]⟩

end Statements

def Kind.cleaner (site : Site) (n : Nat) (h : 0 < n) (k : Kind) : Cleaner service :=
  ⟨k.items site, n, h⟩

/-- the number of expired records of a kind, without the executions below others -/
def Kind.expired (cutoff : Time.Timestamp) (w : World) : Kind → Nat
  | .executions => (w.executions.expired cutoff).length
  | .files => (w.files.select (.before cutoff)).length

theorem le_maxLimit {n : Nat} (short : n < 2 ^ 63) : n ≤ maxLimit :=
  Nat.le_sub_one_of_lt short

/-! ## Executions -/

section Executions

variable {w t : World} {cutoff utc : Time.Timestamp} {n : Nat}

/-- some trees are gone whose roots had expired, and nothing else is other than it was -/
structure Pruned (cutoff : Time.Timestamp) (w t : World) : Prop where
  unstruck : t.strikes = []
  refusals : t.refusals = w.refusals
  locked : t.locked = w.locked
  stores : SameStores w t
  output : t.output = w.output
  felled : ∃ gone, w.executions.Felled t.executions gone ∧ ∀ id ∈ gone, ∃ x ∈ w.executions.expired cutoff, x.id = id

theorem Pruned.refl (unstruck : w.strikes = []) : Pruned cutoff w w :=
  ⟨unstruck, rfl, rfl, .refl w, rfl, [], .refl _, by simp⟩

theorem Pruned.remove (h : Pruned cutoff w t) {x : Execution} (hx : x ∈ t.executions.expired cutoff) :
    Pruned cutoff w
      { t with executions := t.executions.remove (Execution.treeLevels t.executions.rows x.id).flatten } := by
  obtain ⟨gone, felled, old⟩ := h.felled
  have row : x ∈ t.executions.rows := List.mem_of_mem_filter hx
  have before : x ∈ w.executions.expired cutoff := List.mem_filter.2 ⟨felled.sub.subset row, (List.mem_filter.1 hx).2⟩
  refine ⟨h.unstruck, h.refusals, h.locked, ⟨h.stores.bucket, h.stores.files⟩, h.output, x.id :: gone,
    felled.remove (List.mem_map_of_mem row), ?_⟩
  intro id hid
  rcases List.mem_cons.1 hid with rfl | hid
  · exact ⟨x, before, rfl⟩
  · exact old id hid

/-- the tree of an expired execution that is still there has the locked rows that it had -/
theorem Pruned.locksTree (h : Pruned cutoff w t) {x : Execution} (hx : x ∈ t.executions.expired cutoff) :
    t.locksTree x.id = w.locksTree x.id := by
  obtain ⟨gone, felled, old⟩ := h.felled
  have roots : ∀ id ∈ gone, ∃ y ∈ w.executions.rows, y.id = id ∧ y.parent = none := by
    intro id hid
    obtain ⟨y, hy, same⟩ := old id hid
    exact ⟨y, List.mem_of_mem_filter hy, same, ExecutionTable.top_of_mem_expired hy⟩
  have tree (id : String) : id ∈ (Execution.treeLevels t.executions.rows x.id).flatten ↔
      id ∈ (Execution.treeLevels w.executions.rows x.id).flatten :=
    felled.mem_treeLevels_iff (List.mem_of_mem_filter hx) (ExecutionTable.top_of_mem_expired hx) roots
  unfold World.locksTree
  rw [Bool.eq_iff_iff, List.any_eq_true, List.any_eq_true, h.locked]
  simp only [tree]

/-- the other expired executions keep their order -/
theorem order_without_execution {table : ExecutionTable} {x : Execution} {before after : List Execution}
    (h : oldestFirst (·.startedAt) (table.expired cutoff) = before ++ x :: after) :
    oldestFirst (·.startedAt) ((table.remove (Execution.treeLevels table.rows x.id).flatten).expired cutoff) =
      before ++ after := by
  have apart : ((table.expired cutoff).map (·.id)).Nodup := table.distinct.sublist (List.filter_sublist.map _)
  rw [ExecutionTable.expired_remove (mem_of_split h)]
  exact oldestFirst_without apart h

/-- the executions, of which those stay that have a locked row in their tree -/
def executionStock (site : Site) (cutoff : Time.Timestamp) (dated : cutoff.toUtc? = some utc) (h : 0 < n)
    (short : n ≤ maxLimit) (w : World) : Stock serve (Kind.executions.cleaner site n h) cutoff where
  sound := Pruned cutoff w
  expired t := oldestFirst (·.startedAt) (t.executions.expired cutoff)
  stays x := w.locksTree x.id
  label e := e.description
  count t events ht := by
    refine (unstruck_count_executions ht.unstruck dated).mono ?_
    rintro r u more ⟨rfl, rfl, rfl⟩
    exact ⟨congrArg (fun n : Nat => Except.ok (n : Int)) (oldestFirst_perm _ _).length_eq.symm, ht, rfl, rfl⟩
  fetch t events ht := by
    refine (unstruck_page_executions ht.unstruck dated h short).mono ?_
    rintro r u more ⟨rfl, rfl, rfl⟩
    exact ⟨rfl, ht, rfl, rfl⟩
  describe t events x ht _ := ⟨rfl, ht, rfl, rfl⟩
  stay t events x ht hx locked := by
    have mem := (oldestFirst_perm _ _).mem_iff.1 hx
    have held : t.locksTree x.id = true := (ht.locksTree mem).trans locked
    refine (unstruck_keep_execution ht.unstruck (List.mem_of_mem_filter mem) held).mono ?_
    rintro r u more ⟨rfl, rfl, rfl⟩
    exact ⟨⟨_, rfl⟩, ht, rfl, rfl⟩
  go t events x before after ht hx free := by
    have mem := mem_of_split hx
    have unlocked : t.locksTree x.id = false := (ht.locksTree mem).trans free
    refine (unstruck_delete_execution ht.unstruck (List.mem_of_mem_filter mem) unlocked).mono ?_
    rintro r u more ⟨rfl, rfl, rfl⟩
    exact ⟨rfl, ht.remove mem, order_without_execution hx, rfl⟩

theorem descriptions_nodup (w : World) :
    ((oldestFirst (·.startedAt) (w.executions.expired cutoff)).map (·.description)).Nodup := by
  have ids : ((w.executions.expired cutoff).map (·.id)).Nodup :=
    w.executions.distinct.sublist (List.filter_sublist.map _)
  have apart : ((w.executions.expired cutoff).map (·.description)).Nodup := by
    have shape : (w.executions.expired cutoff).map (·.description) =
        ((w.executions.expired cutoff).map (·.id)).map ("historic execution " ++ ·) := by
      rw [List.map_map]
      rfl
    rw [shape]
    exact ids.map fun _ _ same => (String.append_right_inj _).1 same
  exact ((oldestFirst_perm _ _).map _).nodup_iff.2 apart

/-- **A run over executions deletes every tree that can be deleted, and tries each of the others once, if and only if
those with a locked row are on the last page.** -/
theorem executions_complete_iff (site : Site) (w : World) (unstruck : w.strikes = []) (dated : cutoff.toUtc? = some utc)
    (h : 0 < n) (short : n < 2 ^ 63) (few : w.executions.rows.length < 2 ^ 53) :
    (executionStock site cutoff dated h (le_maxLimit short) w).Complete w
        (w.run ((Kind.executions.cleaner site n h).execute cutoff)) ↔
      ∀ x ∈ (oldestFirst (·.startedAt) (w.executions.expired cutoff)).take
        (((w.executions.expired cutoff).length ⌈/⌉ n - 1) * n), w.locksTree x.id = false := by
  have length := (oldestFirst_perm (·.startedAt) (w.executions.expired cutoff)).length_eq
  have expired : (w.executions.expired cutoff).length < 2 ^ 53 := (List.length_filter_le _ _).trans_lt few
  have last := (executionStock site cutoff dated h (le_maxLimit short) w).execute_complete_iff_last
    (Pruned.refl unstruck) (descriptions_nodup w) (length ▸ expired) short
  rw [← length]
  exact last

end Executions

/-! ## Files -/

section Files

variable {w t : World} {site : Site} {cutoff utc : Time.Timestamp} {n : Nat}

/-- some files were to be deleted that had expired: their contents are gone, and their rows but for those that are locked;
nothing else is other than it was -/
structure Culled (site : Site) (cutoff : Time.Timestamp) (w : World) (tried : List Entry) (t : World) : Prop where
  unstruck : t.strikes = []
  refusals : t.refusals = w.refusals
  locked : t.locked = w.locked
  executions : t.executions = w.executions
  output : t.output = w.output
  bucket : t.bucket.isSome = true
  old : ∀ e ∈ tried, e ∈ w.files.select (.before cutoff)
  rows : t.files.rows = w.files.rows.filter fun e => decide (e ∉ tried) || w.locked.contains e.id
  objects : ∀ k o, t.object? k = some o ↔ w.object? k = some o ∧ ∀ e ∈ tried, site.location.key e.space e.id ≠ .ok k

namespace Culled

variable {tried : List Entry} {x : Entry} {b : Bucket} {key : String}

theorem refl (unstruck : w.strikes = []) (bucket : w.bucket.isSome = true) : Culled site cutoff w [] w :=
  ⟨unstruck, rfl, rfl, rfl, rfl, bucket, by simp, by simp, by simp⟩

/-- where no row is locked, the rows of the files are gone -/
theorem rows_of_calm (h : Culled site cutoff w tried t) (calm : Calm w) :
    t.files.rows = w.files.rows.filter fun e => decide (e ∉ tried) := by
  rw [h.rows]
  apply List.filter_congr
  intro e _
  rw [calm.locked, List.contains_nil, Bool.or_false]

theorem tried_cons (h : Culled site cutoff w tried t) (hx : x ∈ t.files.select (.before cutoff)) :
    ∀ e ∈ x :: tried, e ∈ w.files.select (.before cutoff) := by
  obtain ⟨row, old⟩ := List.mem_filter.1 hx
  rw [List.forall_mem_cons]
  exact ⟨List.mem_filter.2 ⟨List.mem_of_mem_filter (h.rows ▸ row), old⟩, h.old⟩

theorem objects_cons (h : Culled site cutoff w tried t) (hb : t.bucket = some b)
    (hkey : site.location.key x.space x.id = .ok key) {u : World} (erased : u.bucket = some (b.erase [key])) (k : String)
    (o : Object) :
    u.object? k = some o ↔ w.object? k = some o ∧ ∀ e ∈ x :: tried, site.location.key e.space e.id ≠ .ok k := by
  rw [object?_erase hb erased, List.forall_mem_cons, ← and_assoc, and_right_comm, ← h.objects k o, hkey]
  split
  case isTrue same => simp [List.mem_singleton.1 same]
  case isFalse other =>
    have differ : key ≠ k := fun same => other (List.mem_singleton.2 same.symm)
    simp [differ]

theorem remove (h : Culled site cutoff w tried t) (hx : x ∈ t.files.select (.before cutoff)) (hb : t.bucket = some b)
    (hkey : site.location.key x.space x.id = .ok key) (free : w.locked.contains x.id = false) :
    Culled site cutoff w (x :: tried)
      { t with bucket := some (b.erase [key]), files := t.files.remove (.file x.space x.id) } := by
  have before : x ∈ w.files.rows := List.mem_of_mem_filter (h.rows ▸ List.mem_of_mem_filter hx)
  refine ⟨h.unstruck, h.refusals, h.locked, h.executions, h.output, rfl, h.tried_cons hx, ?_, h.objects_cons hb hkey rfl⟩
  show t.files.rows.filter _ = _
  rw [h.rows, List.filter_filter]
  apply List.filter_congr
  intro e he
  rw [holds_file w.files before he]
  by_cases own : e = x
  · rw [own, free]
    simp
  · have other : e.id ≠ x.id := fun same => own (List.inj_on_of_nodup_map w.files.distinct he before same)
    simp [own, other]

/-- a file more has lost its content, and its row is locked -/
theorem keep (h : Culled site cutoff w tried t) (hx : x ∈ t.files.select (.before cutoff)) (hb : t.bucket = some b)
    (hkey : site.location.key x.space x.id = .ok key) (locked : w.locked.contains x.id = true) :
    Culled site cutoff w (x :: tried) { t with bucket := some (b.erase [key]) } := by
  refine ⟨h.unstruck, h.refusals, h.locked, h.executions, h.output, rfl, h.tried_cons hx, ?_, h.objects_cons hb hkey rfl⟩
  rw [h.rows]
  apply List.filter_congr
  intro e _
  by_cases own : e = x
  · rw [own, locked]
    simp
  · simp [own]

end Culled

/-- the other expired files keep their order -/
theorem order_without_file {table : FileTable} {x : Entry} {before after : List Entry} {q : FileQuery}
    (h : oldestFirst (·.modified) (table.select q) = before ++ x :: after) :
    oldestFirst (·.modified) ((table.remove (.file x.space x.id)).select q) = before ++ after := by
  have apart : ((table.select q).map (·.id)).Nodup := table.distinct.sublist (List.filter_sublist.map _)
  rw [select_without (List.mem_of_mem_filter (mem_of_split h))]
  exact oldestFirst_without apart h

/-- the files, of which those stay whose rows are locked -/
def fileStock (cutoff : Time.Timestamp) (dated : cutoff.toUtc? = some utc) (h : 0 < n) (short : n ≤ maxLimit)
    (w : World) (named : ∀ e ∈ w.files.rows, ∃ key, site.location.key e.space e.id = .ok key ∧ key ≠ "") :
    Stock serve (Kind.files.cleaner site n h) cutoff where
  sound t := ∃ tried, Culled site cutoff w tried t
  expired t := oldestFirst (·.modified) (t.files.select (.before cutoff))
  stays x := w.locked.contains x.id
  label e := e.description
  count t events ht := by
    obtain ⟨tried, ht⟩ := ht
    refine (unstruck_count_files ht.unstruck dated).mono ?_
    rintro r u more ⟨rfl, rfl, rfl⟩
    exact ⟨congrArg (fun n : Nat => Except.ok (n : Int)) (oldestFirst_perm _ _).length_eq.symm, ⟨tried, ht⟩, rfl, rfl⟩
  fetch t events ht := by
    obtain ⟨tried, ht⟩ := ht
    refine (unstruck_page_files ht.unstruck dated h short).mono ?_
    rintro r u more ⟨rfl, rfl, rfl⟩
    exact ⟨rfl, ⟨tried, ht⟩, rfl, rfl⟩
  describe t events x ht _ := ⟨rfl, ht, rfl, rfl⟩
  stay t events x ht hx locked := by
    obtain ⟨tried, ht⟩ := ht
    have mem := (oldestFirst_perm _ _).mem_iff.1 hx
    have row := List.mem_of_mem_filter mem
    obtain ⟨key, hkey, hne⟩ := named x (List.mem_of_mem_filter (ht.rows ▸ row))
    obtain ⟨b, hb⟩ := Option.isSome_iff_exists.1 ht.bucket
    refine (unstruck_keep_file ht.unstruck hb row hkey hne (ht.locked ▸ locked)).mono ?_
    rintro r u more ⟨failed, rfl, quiet⟩
    exact ⟨failed, ⟨x :: tried, ht.keep mem hb hkey locked⟩, rfl, quiet⟩
  go t events x before after ht hx free := by
    obtain ⟨tried, ht⟩ := ht
    have mem := mem_of_split hx
    have row := List.mem_of_mem_filter mem
    obtain ⟨key, hkey, hne⟩ := named x (List.mem_of_mem_filter (ht.rows ▸ row))
    obtain ⟨b, hb⟩ := Option.isSome_iff_exists.1 ht.bucket
    refine (unstruck_delete_file ht.unstruck hb row hkey hne (ht.locked ▸ free)).mono ?_
    rintro r u more ⟨rfl, rfl, quiet⟩
    exact ⟨rfl, ⟨x :: tried, ht.remove mem hb hkey free⟩, order_without_file hx, quiet⟩

/-- **A run over files deletes every file that can be deleted, and tries each of the others once, if and only if those
whose rows are locked are on the last page.** Files are told apart by their descriptions. -/
theorem files_complete_iff (w : World) (unstruck : w.strikes = []) (bucket : w.bucket.isSome = true)
    (named : ∀ e ∈ w.files.rows, ∃ key, site.location.key e.space e.id = .ok key ∧ key ≠ "")
    (apart : ((w.files.select (.before cutoff)).map (·.description)).Nodup) (dated : cutoff.toUtc? = some utc) (h : 0 < n)
    (short : n < 2 ^ 63) (few : w.files.rows.length < 2 ^ 53) :
    (fileStock cutoff dated h (le_maxLimit short) w named).Complete w
        (w.run ((Kind.files.cleaner site n h).execute cutoff)) ↔
      ∀ x ∈ (oldestFirst (·.modified) (w.files.select (.before cutoff))).take
        (((w.files.select (.before cutoff)).length ⌈/⌉ n - 1) * n), w.locked.contains x.id = false := by
  have perm := oldestFirst_perm (·.modified) (w.files.select (.before cutoff))
  have expired : (w.files.select (.before cutoff)).length < 2 ^ 53 := (List.length_filter_le _ _).trans_lt few
  have last := (fileStock cutoff dated h (le_maxLimit short) w named).execute_complete_iff_last
    ⟨[], Culled.refl unstruck bucket⟩ ((perm.map _).nodup_iff.2 apart) (perm.length_eq ▸ expired) short
  rw [← perm.length_eq]
  exact last

end Files

end Retention

end Depot
