/-
What retention of executions leaves, whatever fails on its way.

An execution is deleted by one transaction together with the tree below it. A fault or a locked row anywhere in the tree
stops the transaction, and all of the tree stays. So a run fells some trees, whose roots had expired, and spares all
others (`Expiring.whole`), and each deletion says rightly whether it felled its tree (`Expiring.delete_ends`).
-/
import Depot.Proofs.Accounts
import Depot.Proofs.Atomicity
import Depot.Proofs.Expiry
import Depot.Proofs.Stocks

namespace Depot

/-! ## Forests -/

namespace Execution

variable {rows : List Execution} {e : Execution}

/-- every execution belongs to the tree of one that no other one started -/
def Forest (rows : List Execution) : Prop :=
  ∀ e ∈ rows, ∃ root : Execution, root.IsRootOf rows e

/-- no execution of a forest refers to a missing parent -/
theorem Forest.parent_there (h : Forest rows) (he : e ∈ rows) {parent : String} (started : e.parent = some parent)
    (distinct : (rows.map (·.id)).Nodup) : ∃ p ∈ rows, p.id = parent := by
  obtain ⟨root, row, top, below⟩ := h e he
  rcases below.cases_tail with same | ⟨x, above, f, hf, same, by_x⟩
  · obtain rfl := List.inj_on_of_nodup_map distinct he row same
    cases top.symm.trans started
  · obtain rfl := List.inj_on_of_nodup_map distinct hf he same
    cases by_x.symm.trans started
    exact Below.row above ⟨root, row, rfl⟩

end Execution

namespace ExecutionTable

open Execution

variable {cutoff : Time.Timestamp} {t t' : ExecutionTable} {n : Nat} {root x e : Execution}

/-- so many trees are gone, of executions that had expired -/
def Expiring (cutoff : Time.Timestamp) (t : ExecutionTable) (n : Nat) (t' : ExecutionTable) : Prop :=
  ∃ gone : List String, gone.Nodup ∧ gone.length = n ∧ t.Felled t' gone ∧ ∀ id ∈ gone, ∃ x ∈ t.expired cutoff, x.id = id

namespace Expiring

theorem refl (cutoff : Time.Timestamp) (t : ExecutionTable) : Expiring cutoff t 0 t :=
  ⟨[], List.nodup_nil, rfl, .refl t, by simp⟩

theorem sub (h : Expiring cutoff t n t') : t'.rows.Sublist t.rows := by
  obtain ⟨gone, -, -, felled, -⟩ := h
  exact felled.sub

theorem expired_subset (h : Expiring cutoff t n t') : t'.expired cutoff ⊆ t.expired cutoff :=
  List.filter_subset _ h.sub.subset

/-- **A tree more is gone.** -/
theorem remove (h : Expiring cutoff t n t') (hx : x ∈ t.expired cutoff) (there : x.id ∈ t'.rows.map (·.id)) :
    Expiring cutoff t (n + 1) (t'.remove (treeLevels t'.rows x.id).flatten) := by
  obtain ⟨gone, once, number, felled, old⟩ := h
  refine ⟨x.id :: gone, List.nodup_cons.2 ⟨fun again => ?_, once⟩, by rw [List.length_cons, number], felled.remove there,
    List.forall_mem_cons.2 ⟨⟨x, hx, rfl⟩, old⟩⟩
  obtain ⟨f, hf, same⟩ := List.mem_map.1 there
  refine (felled.left f (felled.sub.subset hf)).1 hf x.id again ?_
  rw [same]

/-- **A tree is there as a whole, or gone as a whole,** and then its root had expired. -/
theorem whole (h : Expiring cutoff t n t') (row : root ∈ t.rows) (top : root.parent = none) :
    (∀ e ∈ t.rows, root.IsRootOf t.rows e → e ∈ t'.rows) ∨
      root.isExpired cutoff = true ∧ ∀ e, root.IsRootOf t.rows e → e ∉ t'.rows := by
  obtain ⟨gone, -, -, felled, old⟩ := h
  by_cases fallen : root.id ∈ gone
  · obtain ⟨x, hx, same⟩ := old root.id fallen
    obtain ⟨hx, expired⟩ := List.mem_filter.1 hx
    obtain rfl := List.inj_on_of_nodup_map t.distinct hx row same
    exact .inr ⟨expired, fun e he left => (felled.left e (felled.sub.subset left)).1 left x.id fallen he.below⟩
  · refine .inl fun e he tree => (felled.left e he).2 fun r hr below => fallen ?_
    obtain ⟨x, hx, rfl⟩ := old r hr
    have other : x.IsRootOf t.rows e := ⟨List.mem_of_mem_filter hx, top_of_mem_expired hx, below⟩
    exact tree.unique t.distinct other ▸ hr

/-- **What is left of a forest is a forest.** -/
theorem forest (h : Expiring cutoff t n t') (forest : Forest t.rows) : Forest t'.rows := by
  obtain ⟨gone, -, -, felled, -⟩ := h
  intro e he
  have spared := (felled.left e (felled.sub.subset he)).1 he
  obtain ⟨root, row, top, below⟩ := forest e (felled.sub.subset he)
  refine ⟨root, (felled.left root row).2 fun r hr above => spared r hr (above.trans below), top, felled.below below spared⟩

/-- **As many roots are gone as trees.** -/
theorem number (h : Expiring cutoff t n t') :
    (t.rows.filter fun e => e.parent.isNone && decide (e ∉ t'.rows)).length = n := by
  obtain ⟨gone, once, number, felled, old⟩ := h
  have ids : ((t.rows.filter fun e => e.parent.isNone && decide (e ∉ t'.rows)).map (·.id)).Perm gone := by
    refine (List.perm_ext_iff_of_nodup (t.distinct.sublist (List.filter_sublist.map _)) once).2 fun id => ?_
    constructor
    · intro h
      obtain ⟨e, he, rfl⟩ := List.mem_map.1 h
      simp only [List.mem_filter, Bool.and_eq_true, Option.isNone_iff_eq_none, decide_eq_true_eq] at he
      obtain ⟨row, top, lost⟩ := he
      rw [felled.left e row] at lost
      push Not at lost
      obtain ⟨r, hr, below⟩ := lost
      exact eq_of_below_top t.distinct row top below ▸ hr
    · intro hid
      obtain ⟨x, hx, rfl⟩ := old id hid
      have row := List.mem_of_mem_filter hx
      have lost : x ∉ t'.rows := fun left => (felled.left x row).1 left x.id hid .refl
      refine List.mem_map.2 ⟨x, List.mem_filter.2 ⟨row, ?_⟩, rfl⟩
      simp [top_of_mem_expired hx, lost]
  rw [← number, ← ids.length_eq, List.length_map]

end Expiring

end ExecutionTable

/-! ## Runs -/

namespace Retention

open World ExecutionTable

variable {site : Site} {cutoff : Time.Timestamp} {w t : World} {n m : Nat} {x : Execution} {events : List Event}

/-- a look at one level after another changes nothing but what faults are to come -/
theorem lookBelow_eq (levels : List (List String)) (w : World) :
    ∃ reply strikes, w.lookBelow levels = (reply, { w with strikes := strikes }) := by
  induction levels generalizing w with
  | nil => exact ⟨.ok (), w.strikes, rfl⟩
  | cons _ below ih =>
    rw [lookBelow]
    rcases statement_cases w .selectExecutions (fun w => w.lookBelow below) with
      ⟨f, strikes, struck, -⟩ | ⟨strikes, reached, -⟩
    · exact ⟨.error f, strikes, struck⟩
    · obtain ⟨reply, strikes', looked⟩ := ih { w with strikes := strikes }
      exact ⟨reply, strikes', reached.trans looked⟩

/-- **A transaction that removes an execution** removes nothing, and does not say that it did, or removes all of its
tree. -/
theorem deleteExecution_cases (w : World) (id : String) :
    (∃ strikes r, w.deleteExecution id = (r, { w with strikes := strikes }) ∧ ∀ n, r = .ok n → n = 0) ∨
      id ∈ w.executions.rows.map (·.id) ∧ ∃ strikes, w.deleteExecution id =
        (.ok (Execution.treeLevels w.executions.rows id).flatten.length, { w with
          strikes := strikes
          executions := w.executions.remove (Execution.treeLevels w.executions.rows id).flatten }) := by
  unfold deleteExecution
  generalize hanswer : (fun w : World => ite (w.executions.rows.any (·.id == id) = true) _ _) = answer
  rcases statement_cases w .selectExecutions answer with ⟨f, strikes, struck, -⟩ | ⟨strikes, reached, -⟩
  · exact .inl ⟨strikes, .error f, struck, by simp⟩
  · rw [reached, ← hanswer]
    dsimp only
    split
    case isFalse => exact .inl ⟨strikes, .ok 0, rfl, by simp⟩
    case isTrue there =>
      obtain ⟨reply, strikes', looked⟩ :=
        lookBelow_eq (Execution.treeLevels w.executions.rows id) { w with strikes := strikes }
      rw [looked]
      cases reply with
      | error f => exact .inl ⟨strikes', .error f, rfl, by simp⟩
      | ok _ =>
        dsimp only
        generalize hlast : (fun u : World => ite (((Execution.treeLevels w.executions.rows id).flatten.any fun id =>
          u.locked.any (Execution.sameId id)) = true) _ _) = last
        rcases statement_cases { w with strikes := strikes' } .deleteExecutions last with
          ⟨f, strikes'', struck, -⟩ | ⟨strikes'', reached, -⟩
        · exact .inl ⟨strikes'', .error f, struck, by simp⟩
        · rw [reached, ← hlast]
          dsimp only
          split
          · exact .inl ⟨strikes'', .error .lockedRow, rfl, by simp⟩
          · exact .inr ⟨by simpa using there, strikes'', rfl⟩

/-- **A tree is felled or not, and its reply says which,** whatever fails on the way. -/
theorem delete_ends (h : Expiring cutoff w.executions n t.executions) (hx : x ∈ w.executions.expired cutoff) :
    (executions.deleteOne x).Ends serve (fun r u _ =>
      Expiring cutoff w.executions (n + Cleaner.said r) u.executions) t events := by
  show (Op.ask (.deleteExecution x.id) >>= fun reply => Prog.ofReply reply >>= fun n => pure (0 < n : Bool)).Ends _ _ _ _
  rw [Op.ends_ask_bind, serve]
  rcases deleteExecution_cases t x.id with ⟨strikes, r, same, silent⟩ | ⟨there, strikes, felled⟩
  · rw [same]
    cases r with
    | error f => exact h
    | ok rows =>
      obtain rfl := silent rows rfl
      exact h
  · rw [felled]
    have found := Execution.length_treeLevels_pos there
    show Expiring cutoff w.executions (n + Cleaner.said (.ok (decide _))) _
    rw [decide_eq_true found]
    exact h.remove hx there

theorem pageOf_executions_ends (limit : Int) :
    (pageOf cutoff limit fun utc n => do Prog.ofReply (← Op.ask (.pageExecutions utc n)) : Op (List Execution)).Ends
      serve (Within (w.executions.expired cutoff)) w events := by
  refine pageOf_ends limit fun utc n dated => ?_
  rw [Op.ends_ask_bind, Prog.ends_ofReply, ← expired_utc dated]
  intro page given
  exact mem_of_page (fun w => w.executions.expired utc) (fun _ => rfl) (Prog.bare_eq_ok.1 given)

/-- a call that leaves the executions as they are -/
def KeepsExecutions (c : Call) : Prop :=
  ∀ w, (serve c w).2.executions = w.executions

theorem countExecutions_keeps (utc : Time.Timestamp) : KeepsExecutions (.countExecutions utc) :=
  fun w => statement_keeps (J := fun t => t.executions = w.executions) (fun _ _ same => same) _ (fun _ same => same) rfl

theorem pageExecutions_keeps (utc : Time.Timestamp) (n : Nat) : KeepsExecutions (.pageExecutions utc n) :=
  fun w => statement_keeps (J := fun t => t.executions = w.executions) (fun _ _ same => same) _ (fun _ same => same) rfl

/-- **The cleaner for executions keeps account of the trees that are gone.** -/
theorem executions_account (site : Site) (cutoff : Time.Timestamp) (h : 0 < n) (w : World) :
    (Kind.executions.cleaner site n h).Accounts serve cutoff (fun m t => Expiring cutoff w.executions m t.executions)
      fun e => e ∈ w.executions.expired cutoff where
  count m t events ht := by
    have only : (executions.count cutoff).Only KeepsExecutions := only_countExecutions countExecutions_keeps cutoff
    refine only.keeps (fun c u keeps hu => ?_) ht
    rwa [keeps u]
  fetch m t events ht := by
    have only : (executions.fetchPage cutoff n).Only KeepsExecutions :=
      only_fetchExecutions pageExecutions_keeps cutoff n
    have same : (executions.fetchPage cutoff n).Ends serve (fun _ u _ => u.executions = t.executions) t events :=
      only.keeps (fun c u keeps hu => (keeps u).trans hu) rfl
    refine (same.and (pageOf_executions_ends n)).mono fun r u _ hu => ⟨?_, fun page given e he => ?_⟩
    · rwa [hu.1]
    · exact ht.expired_subset (hu.2 page given e he)
  delete e m t events he ht := delete_ends ht he

theorem executions_describes (site : Site) (h : 0 < n) : (Kind.executions.cleaner site n h).Describes :=
  fun e => ⟨e.description, rfl⟩

/-- **Retention of executions takes whole trees, whatever fails.** After a run of a cleaner for executions over a forest,
however it ends:
- a tree is there as it was, or is gone as a whole, and then its root had ended and started before the cutoff;
- no execution refers to a missing parent;
- a run that ends well gives the number of trees that are gone. -/
theorem tree_retention_whole (site : Site) (w : World) (forest : Execution.Forest w.executions.rows)
    (cutoff : Time.Timestamp) (n : Nat) (h : 0 < n) :
    let run := w.run ((Kind.executions.cleaner site n h).execute cutoff)
    let before := w.executions.rows
    let after := run.state.executions.rows
    after.Sublist before ∧
    (∀ root ∈ before, root.parent = none →
      (∀ e ∈ before, root.IsRootOf before e → e ∈ after) ∨
        (root.endedAt.isSome ∧ root.startedAt.instant < cutoff.instant) ∧ ∀ e, root.IsRootOf before e → e ∉ after) ∧
    (∀ e ∈ after, ∀ parent, e.parent = some parent → ∃ p ∈ after, p.id = parent) ∧
    ∀ m, run.outcome = .ok m → m = (before.filter fun e => e.parent.isNone && decide (e ∉ after)).length := by
  intro run before after
  have account := executions_account site cutoff h w
  obtain ⟨m, expiring, number⟩ :=
    World.run_of_ends (account.execute_ends (executions_describes site h) (Expiring.refl cutoff w.executions))
  refine ⟨expiring.sub, fun root row top => ?_, fun e he parent started =>
    (expiring.forest forest).parent_there he started run.state.executions.distinct, fun k returned => ?_⟩
  · refine (expiring.whole row top).imp_right fun ⟨expired, gone⟩ => ⟨?_, gone⟩
    simp only [Execution.isExpired, Bool.and_eq_true, decide_eq_true_eq] at expired
    exact ⟨expired.1.2, expired.2⟩
  · exact (number k returned).trans expiring.number.symm

/-- an execution that ended, with one in its tree that did not, and an execution that is still running -/
def twoTrees : World :=
  let time (days : Int) : Time.Timestamp := (World.start.add? (-(days * Time.day))).getD World.start
  let execution (id : String) (parent : Option String) (ended : Option Time.Timestamp) : Execution :=
    ⟨id, parent, "def", "s", time 30, ended⟩
  { World.fresh with
    executions := ⟨[execution "1" none (some (time 29)), execution "2" (some "1") none, execution "3" none none], by
      decide⟩ }

theorem twoTrees_forest : Execution.Forest twoTrees.executions.rows := by
  have roots : ∀ e ∈ twoTrees.executions.rows, ∃ root ∈ twoTrees.executions.rows, root.parent = none ∧
      (root.id = e.id ∨ e.parent = some root.id) := by
    decide +kernel
  intro e he
  obtain ⟨root, row, top, same | started⟩ := roots e he
  · exact ⟨root, row, top, same ▸ .refl⟩
  · exact ⟨root, row, top, .single ⟨e, he, rfl, started⟩⟩

theorem tree_retention_twoTrees :
    let run := twoTrees.run ((Kind.executions.cleaner (.standard .top) 1 Nat.one_pos).execute World.start)
    Execution.Forest twoTrees.executions.rows ∧ run.outcome = .ok 1 ∧ run.state.executions.rows.map (·.id) = ["3"] ∧
      (twoTrees.executions.rows.filter fun e => e.parent.isNone && decide (e ∉ run.state.executions.rows)).length = 1 := by
  intro run
  have returned : run.outcome = .ok 1 := by decide +kernel
  obtain ⟨-, -, -, number⟩ :=
    tree_retention_whole (.standard .top) twoTrees twoTrees_forest World.start 1 Nat.one_pos
  exact ⟨twoTrees_forest, returned, by decide +kernel, (number 1 returned).symm⟩

end Retention

end Depot
