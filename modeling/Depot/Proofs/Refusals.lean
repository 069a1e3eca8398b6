/-
What the bucket refuses to delete.

An answer to a request to delete many objects can name some of them that were not deleted. A bulk deletion puts these on
record and goes on. So where it ends well each object that its selection picks was asked for, and is gone or was refused
(`Content.deleteMatching_settles`); what is gone was taken by a request (`Op.gone_iff_taken`). Its rows are removed in
either case: the objects that remain are those that were refused and not taken by another request
(`deleted_selection_gone_iff`). A request that fails is another matter; it is the failure of the deletion, and the rows
stay.
-/
import Depot.Proofs.Faults

namespace Depot

open World

variable {α : Type} {w t : World} {events : List Event} {site : Site} {l : Key.Location} {selection : Selection}
  {k : String} {o : Object}

/-! ## Requests for one object -/

/-- a request that removes what is at a key -/
def Call.Takes (k : String) : (c : Call) → c.Reply → Prop
  | .deleteObject key, r => r = .ok () ∧ k = key
  | .deleteObjects keys, r => ∃ refused, r = .ok refused ∧ k ∈ keys ∧ k ∉ refused.filterMap (·.key)
  | _, _ => False

/-- a request whose answer is that what is at a key was not removed -/
def Call.Refuses (k : String) : (c : Call) → c.Reply → Prop
  | .deleteObjects keys, r => ∃ refused, r = .ok refused ∧ k ∈ keys ∧ k ∈ refused.filterMap (·.key)
  | _, _ => False

/-- **An object stays where it is until a request takes it.** -/
theorem World.serve_takes {c : Call} (h : c.AddsNothing) (k : String) (w : World) :
    c.Takes k (serve c w).1 ∧ (serve c w).2.object? k = none ∨
      ¬c.Takes k (serve c w).1 ∧ (serve c w).2.object? k = w.object? k := by
  by_cases keeps : c.KeepsBucket
  · refine .inr ⟨?_, by rw [object?, object?, serve_keepsBucket keeps]⟩
    cases c with
    | deleteObject | deleteObjects => exact keeps.elim
    | _ => exact id
  cases c with
  | deleteObject key =>
    rcases serve_deleteObject w key with ⟨f, reply, same⟩ | ⟨reply, b, hb, ht, -⟩
    · refine .inr ⟨fun taken => ?_, same.object? k⟩
      cases reply.symm.trans taken.1
    · rw [object?_erase hb ht]
      by_cases own : k = key
      · exact .inl ⟨⟨reply, own⟩, if_pos (List.mem_singleton.2 own)⟩
      · exact .inr ⟨fun taken => own taken.2, if_neg fun taken => own (List.mem_singleton.1 taken)⟩
  | deleteObjects keys =>
    rcases serve_deleteObjects w keys with ⟨f, reply, same⟩ | ⟨refused, reply, -, b, hb, ht, -⟩
    · refine .inr ⟨?_, same.object? k⟩
      rintro ⟨refused, given, -⟩
      cases reply.symm.trans given
    · have sent : k ∈ (keys.filter fun k => !(refused.filterMap (·.key)).contains k) ↔
          k ∈ keys ∧ k ∉ refused.filterMap (·.key) := by
        simp only [List.mem_filter, Bool.not_eq_true', List.contains_eq_mem, decide_eq_false_iff_not]
      rw [object?_erase hb ht]
      by_cases taken : k ∈ keys ∧ k ∉ refused.filterMap (·.key)
      · exact .inl ⟨⟨refused, reply, taken⟩, if_pos (sent.2 taken)⟩
      · refine .inr ⟨?_, if_neg fun took => taken (sent.1 took)⟩
        rintro ⟨refused', given, taken'⟩
        obtain rfl : refused = refused' := Except.ok.inj (reply.symm.trans given)
        exact taken taken'
  | putObject | insertFile => exact h.elim
  | _ => exact absurd trivial keeps

/-- **What is gone was taken,** where nothing is added. -/
theorem Op.gone_iff_taken {p : Op α} (h : p.Only Call.AddsNothing) (k : String) (w : World) :
    (w.run p).state.object? k = none ↔ p.Makes serve (Call.Takes k) w ∨ w.object? k = none := by
  have kept : p.Ends (Prog.watch serve (Call.Takes k)) (fun _ t _ => t.1.object? k = none ↔ t.2 ∨ w.object? k = none)
      (w, False) [] := by
    refine h.keeps (J := fun t : World × Prop => t.1.object? k = none ↔ t.2 ∨ w.object? k = none)
      (fun c t adds before => ?_) (by rw [false_or])
    show (serve c t.1).2.object? k = none ↔ (t.2 ∨ c.Takes k (serve c t.1).1) ∨ w.object? k = none
    rcases serve_takes adds k t.1 with ⟨taken, gone⟩ | ⟨other, same⟩
    · exact iff_of_true gone (.inl (.inr taken))
    · rw [same, before, or_iff_left other]
  exact run_of_ends ((Prog.ends_watch p _ w []).1 kept)

/-! ## Objects that are asked for -/

namespace Content

/-- a state with a note of whether the object at a key was refused -/
abbrev watchRefused (k : String) : (c : Call) → World × Prop → c.Reply × (World × Prop) :=
  Prog.watch (I := service) serve (Call.Refuses k)

/-- an object that is to be deleted is gone, or was refused, or is still to come, or waits -/
structure Due (k : String) (o : Object) (among : Prop) (rest : List String) (tally : Tally) (t : World × Prop) : Prop where
  object : t.1.object? k = none ∨ t.1.object? k = some o
  settles : Pending t.1 k among rest (t.2 ∨ k ∈ tally.waiting)

namespace Due

variable {among : Prop} {rest : List String} {tally : Tally} {t : World × Prop} {key : String} {b : Bucket}

theorem then_same {u : World × Prop} (h : Due k o among rest tally t) (same : SameStores t.1 u.1) (kept : t.2 → u.2) :
    Due k o among rest tally u where
  object := same.object? k ▸ h.object
  settles hk := (h.settles.then_same same hk).imp_right (Or.imp_right (Or.imp_left kept))

theorem thin (h : Due k o among rest tally t) :
    Due k o among (rest.filter fun k => (t.1.object? k).isSome) tally t :=
  ⟨h.object, h.settles.thin⟩

theorem flush_ends (h : Due k o among rest tally t) : tally.flush.Ends (watchRefused k)
    (Over Prod.fst (fun tally u => Due k o among rest tally u ∧ tally.waiting = []) (fun _ => True) t) t events := by
  obtain ⟨t, seen⟩ := t
  rw [Tally.flush, Op.ends_ask_bind_watch]
  rcases serve_deleteObjects t tally.waiting with ⟨f, reply, -⟩ | ⟨refused, reply, -, b, hb, hu, -⟩
  · rw [reply]
    trivial
  have note : Call.Refuses k (.deleteObjects tally.waiting) (serve (.deleteObjects tally.waiting) t).1 ↔
      k ∈ tally.waiting ∧ k ∈ refused.filterMap (·.key) := by
    rw [reply]
    constructor
    · rintro ⟨_, ⟨⟩, named⟩
      exact named
    · exact fun named => ⟨refused, rfl, named⟩
  have object := object?_erase hb hu k
  rw [note, reply, Prog.ofReply_ok_bind]
  refine (Prog.ends_records _ refused _ _).bind (fun _ u more same => ?_) (fun e u more same => trivial)
  obtain ⟨-, rfl⟩ := same
  refine ⟨⟨b, _, hb, hu⟩, ⟨?_, fun hk => ?_⟩, rfl⟩
  · dsimp only
    rw [object]
    split
    · exact .inl rfl
    · exact h.object
  · dsimp only
    rw [object]
    rcases h.settles hk with gone | coming | noted | waits
    · exact .inl (ite_eq_left_iff.2 fun _ => gone)
    · exact .inr (.inl coming)
    · exact .inr (.inr (.inl (.inl noted)))
    · by_cases named : k ∈ refused.filterMap (·.key)
      · exact .inr (.inr (.inl (.inr ⟨waits, named⟩)))
      · exact .inl (if_pos (List.mem_filter.2 ⟨waits, by simpa using named⟩))

theorem consider_ends (h : Due k o among (key :: rest) tally t) (hb : t.1.bucket = some b) (wanted : selection.Wants o) :
    (consider site selection tally key).Ends (watchRefused k)
      (Over Prod.fst (Due k o among rest) (fun _ => True) t) t events := by
  obtain ⟨t, seen⟩ := t
  rw [consider]
  refine (selects_ends selection key).watched.bind (fun chosen u more hu => ?_) (fun e u more hu => trivial)
  obtain ⟨⟨same, answers⟩, kept⟩ := hu
  obtain ⟨-, answers⟩ := answers chosen rfl
  have still : Erased t u.1 := .of_same hb same.bucket
  have looked := h.then_same same kept
  cases chosen with
  | false =>
    refine ⟨still, looked.object, looked.settles.look ?_ id⟩
    rintro rfl
    rcases h.object with gone | there
    · exact .inl ((same.object? k).trans gone)
    · cases (answers o there).2.2 wanted
  | true =>
    have waits : Due k o among rest { tally with waiting := tally.waiting ++ [key] } u := by
      refine ⟨looked.object, looked.settles.look ?_ (Or.imp_right (List.mem_append_left _))⟩
      rintro rfl
      exact .inr (.inr (by simp))
    show (tally.add site key).Ends _ _ _ _
    rw [Tally.add]
    split
    · refine waits.flush_ends.mono fun r v more hv => ?_
      cases r with
      | ok tally => exact ⟨still.trans hv.1, hv.2.1⟩
      | error e => trivial
    · exact ⟨still, waits⟩

theorem opens {done : List (Option String)} {space : Option String} {start : String}
    (h : Due k o (Among l done k) [] tally t) (hb : t.1.bucket = some b) (hstart : l.start space = .ok start) :
    Due k o (Among l (done ++ [space]) k) (b.listed start none) tally t :=
  ⟨h.object, h.settles.opens hb hstart⟩

theorem finish_ends (h : Due k o among [] tally t) (hk : among) : tally.finish.Ends (watchRefused k)
    (fun r t _ => ∀ tally, r = .ok tally → t.1.object? k = none ∨ t.2) t events := by
  have done : ∀ tally u, Due k o among [] tally u → tally.waiting = [] → u.1.object? k = none ∨ u.2 := by
    intro tally u h nothing
    rcases h.settles hk with gone | coming | noted | waits
    · exact .inl gone
    · cases coming
    · exact .inr noted
    · rw [nothing] at waits
      cases waits
  rw [Tally.finish]
  split
  case isTrue nothing => exact fun _ _ => done tally t h nothing
  case isFalse =>
    refine h.flush_ends.mono fun r u more hu => ?_
    rintro tally rfl
    exact done tally u hu.2.1 hu.2.2

end Due

/-- **Where a bulk deletion ends well, each object that is picked is gone, or was refused.** -/
theorem deleteMatching_settles (ho : w.object? k = some o) (picked : selection.Picks site.location k o) :
    (deleteMatching site selection).Ends (watchRefused k)
      (fun r t _ => ∀ n, r = .ok n → t.1.object? k = none ∨ t.2) (w, False) events := by
  have loop : (overSpaces site (consider site selection) .zero (searched selection)).Ends (watchRefused k) (fun r t _ =>
      ∀ tally, r = .ok tally → Due k o (Among site.location (searched selection) k) [] tally t) (w, False) events := by
    refine (overSpaces_covers (J := fun done rest tally t => Due k o (Among site.location done k) rest tally t)
      (carries_watch _) ?reads (fun _ _ _ _ h => h.thin) (fun _ _ _ _ _ _ _ _ hb h => h.consider_ends hb picked.2)
      (fun _ _ _ _ _ _ _ _ hstart _ hb h => h.opens hb hstart) _ ?zero).mono fun r t more h tally eq => (h tally eq).1
    case reads =>
      intro done rest tally t start after h
      exact h.then_same (serve_reads (c := .listObjects start after) (by exact trivial) t.1) .inl
    case zero =>
      refine ⟨.inr ho, ?_⟩
      rintro ⟨space, absent, -⟩
      cases absent
  rw [deleteMatching]
  refine Prog.Ends.bind (R := fun r t _ => ∀ tally, r = .ok tally → t.1.object? k = none ∨ t.2) ?_
    (fun tally t more h _ _ => h tally rfl) (fun e t more h => by simp)
  refine Op.ends_account (R := fun r t _ => ∀ tally, r = .ok tally → t.1.object? k = none ∨ t.2) ?_
    (fun _ _ _ h => h) (fun _ _ _ _ _ _ _ => by simp)
  refine loop.bind (fun tally t more h => ?_) (fun e t more h => by simp)
  exact (h tally rfl).finish_ends picked.1

end Content

theorem Files.deleteSelected_settles (ho : w.object? k = some o) (picked : selection.Picks site.location k o) :
    (deleteSelected site selection).Ends (Content.watchRefused k)
      (fun r t _ => ∀ n, r = .ok n → t.1.object? k = none ∨ t.2) (w, False) events := by
  refine (Content.deleteMatching_settles ho picked).bind (fun n t more h => ?_) (fun e t more h => by simp)
  refine (statement_remove_ends _ (queryOf selection)).watched.mono fun r u more hu m eq => ?_
  obtain ⟨rows, kept⟩ := hu
  have bucket : u.1.bucket = t.1.bucket := by
    rcases rows with ⟨failure, failed, -⟩ | ⟨-, bucket, -⟩
    · cases eq.symm.trans failed
    · exact bucket
  rw [object?, bucket]
  exact (h n rfl).imp_right kept

theorem Deletion.selected_settles (ho : w.object? k = some o) (picked : selection.Picks site.location k o) :
    ((Deletion.selected selection).program site).Ends (Content.watchRefused k)
      (fun r t _ => ∀ n, r = .ok n → t.1.object? k = none ∨ t.2) (w, False) events := by
  cases selection with
  | inNamespace space ns => exact Files.deleteSelected_settles ho picked
  | inSpaces spaces => exact Files.deleteSelected_settles ho picked
  | before cutoff =>
    exact (Files.deleteSelected_settles ho picked).bind (fun n t more h _ _ => h n rfl) (fun e t more h => by simp)

theorem Deletion.only_selected (selection : Selection) :
    ((Deletion.selected selection).program site).Only Call.AddsNothing := by
  cases selection with
  | inNamespace space ns => exact Files.only_deleteSelected _
  | inSpaces spaces => exact Files.only_deleteSelected _
  | before cutoff => exact Files.only_deleteBefore cutoff

/-- **A bulk deletion that ends well leaves just those contents that the bucket refused to delete.** Whatever faults and
refusals are scheduled: where it ends well nothing that it selects remains, unless the answer to a request named an object
as not deleted and no other request took it; the rows are removed all the same. Where it fails the rows stay, and a fault
of the bucket at any of its requests makes it fail, with that fault as the cause. -/
theorem deleted_selection_gone_iff (site : Site) (w : World) (selection : Selection) :
    (∀ n, (w.run ((Deletion.selected selection).program site)).outcome = .ok n →
      ((¬∃ k o, (w.run ((Deletion.selected selection).program site)).state.object? k = some o ∧
          selection.Picks site.location k o) ↔
        ∀ k o, w.object? k = some o → selection.Picks site.location k o →
          ((Deletion.selected selection).program site).Makes serve (Call.Refuses k) w →
          ((Deletion.selected selection).program site).Makes serve (Call.Takes k) w) ∧
      (w.run ((Deletion.selected selection).program site)).state.files = w.files.remove (Files.queryOf selection)) ∧
    (∀ failure, (w.run ((Deletion.selected selection).program site)).outcome = .error failure →
      (w.run ((Deletion.selected selection).program site)).state.files = w.files) ∧
    ∀ e f, f.isBucketFault = true →
      ((Deletion.selected selection).program site).Makes serve (Call.Struck e f) w →
      (w.run ((Deletion.selected selection).program site)).outcome = .error (.storage (.deleteContents selection) f) := by
  have deletes := run_of_ends (w := w) (Deletion.program_ends site (.selected selection))
  have adds : ((Deletion.selected selection).program site).Only Call.AddsNothing := Deletion.only_selected selection
  have gone k := Op.gone_iff_taken adds k w
  have settled : ∀ k o, w.object? k = some o → selection.Picks site.location k o → ∀ n,
      (w.run ((Deletion.selected selection).program site)).outcome = .ok n →
      (w.run ((Deletion.selected selection).program site)).state.object? k = none ∨
        ((Deletion.selected selection).program site).Makes serve (Call.Refuses k) w := by
    intro k o ho picked
    exact run_of_ends ((Prog.ends_watch _ _ w []).1 (Deletion.selected_settles ho picked))
  refine ⟨fun n ended => ⟨⟨?_, ?_⟩, ?_⟩, fun failure failed => ?_, fun e f bucket struck => ?_⟩
  · intro clear k o ho picked refused
    by_contra kept
    cases there : (w.run ((Deletion.selected selection).program site)).state.object? k with
    | none =>
      rcases (gone k).1 there with taken | absent
      · exact kept taken
      · cases ho.symm.trans absent
    | some o' =>
      obtain rfl : o' = o := Option.some.inj ((deletes.objects k o' there).symm.trans ho)
      exact clear ⟨k, o', there, picked⟩
  · rintro taken ⟨k, o, there, picked⟩
    have ho := deletes.objects k o there
    rcases settled k o ho picked n ended with absent | refused
    · cases there.symm.trans absent
    · cases there.symm.trans ((gone k).2 (.inl (taken k o ho picked refused)))
  · have rows := deletes.rows
    rw [ended] at rows
    exact rows.1
  · have rows := deletes.rows
    rw [failed] at rows
    exact rows
  · obtain ⟨failure, outcome, rfl, -⟩ := (Deletion.blames_selected bucket selection).outcome struck
    exact outcome

/-- a file, whose content the bucket once refuses to delete -/
def deniedOnce : World :=
  { after .top .fresh [.upload "s" "1"] with refusals := [⟨[⟨some "s/1", some "denied"⟩], 0, some 1⟩] }

theorem deleted_selection_gone_iff_deniedOnce :
    let deletion := (Deletion.selected (.inSpaces ["s"])).program (.standard .top)
    (deniedOnce.run deletion).outcome = .ok 1 ∧ (deniedOnce.run deletion).state.files.rows = [] ∧
      ∃ k o, deniedOnce.object? k = some o ∧ (Selection.inSpaces ["s"]).Picks .top k o ∧
        deletion.Makes serve (Call.Refuses k) deniedOnce ∧ ¬deletion.Makes serve (Call.Takes k) deniedOnce := by
  have returns : (deniedOnce.run ((Deletion.selected (.inSpaces ["s"])).program (.standard .top))).outcome = .ok 1 := by
    decide +kernel
  have remains : ((deniedOnce.run ((Deletion.selected (.inSpaces ["s"])).program (.standard .top))).state.object?
      "s/1").isSome := by
    decide +kernel
  have picked : ∀ o, (Selection.inSpaces ["s"]).Picks .top "s/1" o :=
    fun o => ⟨⟨some "s", by simp [Content.searched], "s/", by decide +kernel, by decide +kernel⟩, trivial⟩
  obtain ⟨clear, -⟩ := (deleted_selection_gone_iff (.standard .top) deniedOnce (.inSpaces ["s"])).1 1 returns
  obtain ⟨o, there⟩ := Option.isSome_iff_exists.1 remains
  have kept := mt clear.2 (not_not.2 ⟨"s/1", o, there, picked o⟩)
  push Not at kept
  exact ⟨returns, by decide +kernel, kept⟩

end Depot
