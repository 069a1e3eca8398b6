/-
Deletions that are repeated.

A deletion that fails may have stopped anywhere: between two pages of a listing, between two requests, after a request
that removed some objects and refused others, or before the rows were removed. But it has removed nothing except what
was to be removed, and what is gone stands in nobody's way (`Deletion.Passable.left`). So if a deletion would end well
without faults, its repetition without faults ends well whatever the first attempt met, and leaves the stores that one
run without faults leaves (`retry_converges`). Where nothing struck the first attempt, the repetition finds nothing to
delete.
-/
import Depot.Proofs.Atomicity
import Depot.Proofs.Completion
import Depot.Proofs.History
import Depot.Proofs.Spared

namespace Depot

open World

variable {w t u : World} {events : List Event} {site : Site} {l : Key.Location} {d : Deletion} {selection : Selection}

/-! ## What stands in the way of a deletion -/

theorem Content.delete_named (space id : String) : (Content.delete site space id).Ends serve (fun r _ _ =>
    r = .ok () → ∃ key, site.location.key space id = .ok key ∧ key ≠ "") w events := by
  unfold Content.delete
  cases hkey : site.location.key space id with
  | error failure =>
    intro ok
    cases ok
  | ok key =>
    rw [Prog.ofExcept_ok_bind]
    by_cases empty : key = ""
    · refine Op.ends_account (R := fun r _ _ => r ≠ .ok ()) ?_ (fun _ _ _ h ok => absurd ok h)
        (fun _ _ _ _ _ _ _ => by simp)
      rw [Prog.ends_record_bind, Op.ends_ask_bind, Prog.ends_ofReply]
      rw [show (serve (.deleteObject key) w).1 = _ from congrArg Prod.fst (request_emptyKey (by simp [empty]) w _ _)]
      intro ok
      cases ok
    · exact Prog.ends_of _ (fun _ _ _ _ => ⟨key, rfl, empty⟩) _ _

theorem Files.statement_remove_answerable (task : Task) (q : FileQuery) :
    (statement task (remove q)).Ends serve (fun r _ _ => ∀ n, r = .ok n → Answerable q) w events := by
  refine Op.ends_account (R := fun r _ _ => ∀ n, r = .ok n → Answerable q) ?_ (fun _ _ _ h => h)
    (fun _ _ _ _ _ _ _ => by simp)
  cases q with
  | before cutoff =>
    rw [remove, prepare, inUtc]
    cases hutc : cutoff.toUtc? with
    | none =>
      intro n ok
      cases ok
    | some utc => exact Prog.ends_of _ (fun _ _ _ _ _ => by simp [Answerable, hutc]) _ _
  | _ => exact Prog.ends_of _ (fun _ _ _ _ _ => trivial) _ _

namespace Deletion

/-- nothing stands in the way of a deletion -/
def Passable (l : Key.Location) (d : Deletion) (w : World) : Prop :=
  match d with
  | .file space id => w.bucket.isSome ∧ ∃ key, l.key space id = .ok key ∧ key ≠ ""
  | .selected selection => selection.Passable l w ∧ Files.Answerable (Files.queryOf selection)

theorem selected_passable (selection : Selection) : (Files.deleteSelected site selection).Ends serve (fun r _ _ =>
    ∀ n, r = .ok n → (Deletion.selected selection).Passable site.location w) w events := by
  unfold Files.deleteSelected
  refine (Content.deleteMatching_passable selection).bind (fun n t more passable => ?_) (fun e t more h => by simp)
  exact (Files.statement_remove_answerable _ _).mono fun r u more answerable n ok =>
    ⟨passable _ rfl, answerable n ok⟩

/-- **A deletion ends well only if nothing stands in its way.** -/
theorem passable_ends (site : Site) (d : Deletion) : (d.program site).Ends serve (fun r _ _ =>
    ∀ n, r = .ok n → d.Passable site.location w) w events := by
  cases d with
  | file space id =>
    have content : (Content.delete site space id).Ends serve (fun r _ _ => ∀ done, r = .ok done →
        (Deletion.file space id).Passable site.location w) w events := by
      refine ((Content.delete_named space id).and (Content.delete_ends space id)).mono fun r t more h done ok => ?_
      obtain ⟨named, ⟨failure, failed, -⟩ | ⟨removed, -, b, -, hb, -⟩⟩ := h
      · cases ok.symm.trans failed
      · exact ⟨by rw [hb]; rfl, named removed⟩
    have whole : (Files.delete site space id).Ends serve (fun r _ _ => ∀ there, r = .ok there →
        (Deletion.file space id).Passable site.location w) w events :=
      content.bind (fun done t more h => Prog.ends_of _ (fun _ _ _ _ _ => h done rfl) _ _) (fun e t more h => by simp)
    exact whole.bind (fun there t more h _ _ => h there rfl) (fun e t more h => by simp)
  | selected selection =>
    cases selection with
    | inNamespace space ns => exact selected_passable (.inNamespace space ns)
    | inSpaces spaces => exact selected_passable (.inSpaces spaces)
    | before cutoff =>
      exact (selected_passable (.before cutoff)).bind (fun n t more h _ _ => h n rfl) (fun e t more h => by simp)

/-- what a deletion leaves does not stand in its way -/
theorem Passable.left (h : d.Passable l w) {run : Prog.Run World Nat} (deletes : d.Deletes l w run)
    (bucket : run.state.bucket.isSome = w.bucket.isSome) : d.Passable l run.state := by
  cases d with
  | file space id => exact ⟨bucket.trans h.1, h.2⟩
  | selected selection => exact ⟨h.1.left bucket deletes.objects, h.2⟩

/-! ## What a deletion without faults leaves -/

/-- all that was to be removed is gone, and nothing else -/
structure Clears (l : Key.Location) (d : Deletion) (w t : World) : Prop where
  files : t.files = w.files.remove d.query
  objects : ∀ k o, t.object? k = some o ↔ w.object? k = some o ∧ ¬d.Takes l k o

/-- a bulk deletion that looks nowhere -/
theorem nowhere_clears (h : Content.searched selection = []) : (Files.deleteSelected site selection).Ends serve
    (Prog.Succeeds fun _ t _ => (Deletion.selected selection).Clears site.location w t) w events := by
  cases selection with
  | inNamespace | before => simp [Content.searched] at h
  | inSpaces spaces =>
    obtain rfl : spaces = [] := by simpa [Content.searched] using h
    have nothing : (Files.deleteSelected site (.inSpaces [])).Ends serve
        (Prog.Succeeds fun _ t _ => t = w) w events := by
      unfold Files.deleteSelected Content.deleteMatching Content.overSpaces
      exact ⟨0, rfl, rfl⟩
    refine nothing.mono fun r t more ht => ?_
    obtain ⟨n, rfl, rfl⟩ := ht
    refine ⟨n, rfl, (FileTable.remove_none (fun _ => rfl) _).symm, ?_⟩
    intro k o
    have unpicked : ¬(Selection.inSpaces []).Picks site.location k o := by
      intro picked
      exact Content.not_among_nil picked.1
    exact ⟨fun ho => ⟨ho, unpicked⟩, And.left⟩

theorem selected_clears (calm : Calm w) (pages : ∀ b, w.bucket = some b → b.objects.length < site.pageLimit)
    (passable : (Deletion.selected selection).Passable site.location w) :
    (Files.deleteSelected site selection).Ends serve
      (Prog.Succeeds fun _ t _ => (Deletion.selected selection).Clears site.location w t) w events := by
  by_cases nowhere : Content.searched selection = []
  · exact nowhere_clears nowhere
  · obtain ⟨b, hb⟩ := Option.isSome_iff_exists.1 (passable.1.bucket nowhere)
    refine (Files.calm_deleteSelected calm hb (pages b hb) passable.1 passable.2).mono fun r t more ht => ?_
    obtain ⟨n, rfl, files, objects⟩ := ht
    exact ⟨n, rfl, files, objects⟩

/-- **Without faults a deletion removes all that was to be removed.** -/
theorem program_clears (calm : Calm w) (pages : ∀ b, w.bucket = some b → b.objects.length < site.pageLimit)
    (passable : d.Passable site.location w) :
    (d.program site).Ends serve (Prog.Succeeds fun _ t _ => d.Clears site.location w t) w events := by
  cases d with
  | file space id =>
    obtain ⟨bucket, key, hkey, named⟩ := passable
    obtain ⟨b, hb⟩ := Option.isSome_iff_exists.1 bucket
    refine (Files.calm_delete calm hb hkey named).bind_ok fun there t more ht => ?_
    obtain ⟨-, rfl, -⟩ := ht
    refine ⟨there.toNat, rfl, rfl, ?_⟩
    intro k o
    have own : (Deletion.file space id).Takes site.location k o ↔ k ∈ [key] := by
      rw [Takes, hkey, List.mem_singleton, Except.ok.injEq, eq_comm]
    rw [own, object?_erase hb rfl]
    split
    case isTrue erased => simp [erased]
    case isFalse kept => simp [kept]
  | selected selection =>
    cases selection with
    | inNamespace space ns => exact selected_clears calm pages passable
    | inSpaces spaces => exact selected_clears calm pages passable
    | before cutoff => exact (selected_clears calm pages passable).bind_ok fun n t more ht => ⟨n, rfl, ht⟩

/-! ## Attempts -/

theorem Deletes.of_same {run : Prog.Run World Nat} (h : d.Deletes l t run) (same : SameStores w t) :
    d.Deletes l w run := by
  obtain ⟨rows, objects, kept⟩ := h
  rw [same.files] at rows
  simp only [same.object?] at objects kept
  exact ⟨rows, objects, kept⟩

theorem Clears.of_same (h : d.Clears l t u) (same : SameStores w t) : d.Clears l w u := by
  obtain ⟨files, objects⟩ := h
  rw [same.files] at files
  simp only [same.object?] at objects
  exact ⟨files, objects⟩

theorem Passable.of_same (h : d.Passable l w) (same : SameStores w t) : d.Passable l t := by
  cases d with
  | file space id => exact ⟨same.bucket ▸ h.1, h.2⟩
  | selected selection => exact ⟨h.1.left (by rw [same.bucket]) fun k o ho => (same.object? k).symm.trans ho, h.2⟩

/-- **A deletion that follows an attempt leaves what one that follows none leaves.** -/
theorem Clears.after {run : Prog.Run World Nat} (h : d.Clears l run.state t) (deletes : d.Deletes l w run) :
    d.Clears l w t := by
  obtain ⟨rows, objects, kept⟩ := deletes
  refine ⟨?_, ?_⟩
  · rw [h.files]
    cases outcome : run.outcome with
    | error failure =>
      rw [outcome] at rows
      rw [rows]
    | ok n =>
      rw [outcome] at rows
      rw [rows.1, FileTable.remove_remove]
  · intro k o
    rw [h.objects]
    constructor
    · intro ⟨ho, left⟩
      exact ⟨objects k o ho, left⟩
    · intro ⟨ho, left⟩
      exact ⟨(kept k o ho).resolve_right left, left⟩

theorem Clears.unique (h : d.Clears l w t) (h' : d.Clears l w u) (bucket : u.bucket.isSome = t.bucket.isSome) :
    SameStores t u := by
  refine .of_objects (h'.files.trans h.files.symm) bucket ?_
  intro k
  apply Option.ext
  intro o
  exact (h'.objects k o).trans (h.objects k o).symm

/-- a run of a deletion with pages enough -/
def attempt (site : Site) (d : Deletion) (w : World) : Prog.Run World Nat :=
  w.perform site d.program

theorem attempt_deletes (site : Site) (d : Deletion) (w : World) : d.Deletes site.location w (d.attempt site w) :=
  Deletes.of_same (run_of_ends (w := w.cleared) (d.program_ends (w.provide site))) ⟨rfl, rfl⟩

theorem attempt_bucket (site : Site) (d : Deletion) (w : World) :
    (d.attempt site w).state.bucket.isSome = w.bucket.isSome :=
  run_of_ends (w := w.cleared) (Q := fun _ t _ => t.bucket.isSome = w.bucket.isSome)
    ((Prog.only_any (fun _ => trivial) _).keeps (J := fun (t : World) => t.bucket.isSome = w.bucket.isSome)
      (fun c t _ ht => (serve_bucket c t).trans ht) rfl)

theorem attempt_passable {n : Nat} (h : (d.attempt site w).outcome = .ok n) : d.Passable site.location w :=
  (run_of_ends (w := w.cleared) (passable_ends (w.provide site) d) n h).of_same ⟨rfl, rfl⟩

theorem attempt_clears (site : Site) (calm : Calm w) (passable : d.Passable site.location w) :
    (∃ n, (d.attempt site w).outcome = .ok n) ∧ d.Clears site.location w (d.attempt site w).state := by
  have pages : ∀ b, w.cleared.bucket = some b → b.objects.length < (w.provide site).pageLimit := by
    intro b hb
    show _ < (w.bucket.elim 0 (·.objects.length)) + 1
    rw [show w.bucket = some b from hb]
    exact Nat.lt_succ_self _
  have ends : (d.program (w.provide site)).Ends serve
      (Prog.Succeeds fun _ t _ => d.Clears site.location w.cleared t) w.cleared [] :=
    program_clears ⟨calm.strikes, calm.refusals, calm.locked⟩ pages (passable.of_same ⟨rfl, rfl⟩)
  obtain ⟨n, outcome, clears⟩ := run_of_ends ends
  exact ⟨⟨n, outcome⟩, clears.of_same ⟨rfl, rfl⟩⟩

/-- an attempt that nothing strikes goes as one without faults -/
theorem attempt_spared (spared : (d.program (w.provide site)).Spared w.cleared) :
    (d.attempt site w).outcome = (d.attempt site w.calmed).outcome ∧
      SameStores (d.attempt site w.calmed).state (d.attempt site w).state := by
  have calmed : (d.program (w.provide site)).Ends serve (fun r t _ => r = (d.attempt site w.calmed).outcome ∧
      SameStores (d.attempt site w.calmed).state t) w.cleared.calmed [] :=
    (Prog.ends_iff _ _ _ _).2 ⟨rfl, .refl _⟩
  obtain ⟨outcome, same⟩ := run_of_ends (spared.ends_calmed.1 calmed)
  exact ⟨outcome, same.bucket, same.files⟩

end Deletion

/-- **A repeated deletion leaves what one deletion without faults leaves.** Whatever strikes the first attempt: if the
deletion would end well without faults, then repeating it without faults ends well, and the bucket and the rows are
those that it would have left. If nothing struck the first attempt, the repetition changes nothing and counts no row. -/
theorem retry_converges (site : Site) (d : Deletion) (w : World) (n : Nat)
    (returns : (d.attempt site w.calmed).outcome = .ok n) :
    (∃ m, (d.attempt site (d.attempt site w).state.calmed).outcome = .ok m) ∧
    SameStores (d.attempt site w.calmed).state (d.attempt site (d.attempt site w).state.calmed).state ∧
    ((d.program (w.provide site)).Spared w.cleared →
      (d.attempt site (d.attempt site w).state.calmed).outcome = .ok 0 ∧
      SameStores (d.attempt site w).state (d.attempt site (d.attempt site w).state.calmed).state) := by
  have passable : d.Passable site.location w :=
    (Deletion.attempt_passable returns).of_same ⟨rfl, rfl⟩
  have once : d.Clears site.location w (d.attempt site w.calmed).state :=
    (Deletion.attempt_clears site w.calm_calmed (passable.of_same w.calmed_stores)).2.of_same w.calmed_stores
  have first := Deletion.attempt_deletes site d w
  have left : d.Passable site.location (d.attempt site w).state :=
    passable.left first (Deletion.attempt_bucket site d w)
  have stores := (d.attempt site w).state.calmed_stores
  obtain ⟨⟨m, repeated⟩, again⟩ :=
    Deletion.attempt_clears site (d.attempt site w).state.calm_calmed (left.of_same stores)
  have same : SameStores (d.attempt site w.calmed).state (d.attempt site (d.attempt site w).state.calmed).state := by
    refine once.unique ((again.of_same stores).after first) ?_
    calc
      _ = (d.attempt site w).state.calmed.bucket.isSome := Deletion.attempt_bucket site d _
      _ = w.bucket.isSome := Deletion.attempt_bucket site d w
      _ = _ := (Deletion.attempt_bucket site d w.calmed).symm
  refine ⟨⟨m, repeated⟩, same, ?_⟩
  intro spared
  obtain ⟨outcome, spare⟩ := Deletion.attempt_spared spared
  have zero : m = 0 := by
    have counted := (Deletion.attempt_deletes site d (d.attempt site w).state.calmed).rows
    rw [repeated] at counted
    rw [counted.2, stores.files, spare.files, once.files, FileTable.select_remove]
    rfl
  exact ⟨zero ▸ repeated, spare.symm.trans same⟩

/-- two contents of one space, of which the bucket once refuses to remove the first, and a locked row -/
def refusedAndLocked : World :=
  { after .top .fresh [.upload "s" "1", .upload "s" "2"] with
    refusals := [⟨[⟨some "s/1", none⟩], 0, some 1⟩], locked := ["2"] }

/-- an attempt to delete their space -/
def deleteBoth (w : World) : Prog.Run World Nat :=
  (Deletion.selected (.inSpaces ["s"])).attempt (.standard .top) w

theorem retry_converges_refusedAndLocked :
    (deleteBoth refusedAndLocked.calmed).outcome = .ok 2 ∧
    (deleteBoth refusedAndLocked).outcome.toOption = none ∧
    ((deleteBoth refusedAndLocked).state.object? "s/1").isSome ∧
    ((deleteBoth refusedAndLocked).state.object? "s/2").isNone ∧
    (∃ m, (deleteBoth (deleteBoth refusedAndLocked).state.calmed).outcome = .ok m) ∧
    SameStores (deleteBoth refusedAndLocked.calmed).state
      (deleteBoth (deleteBoth refusedAndLocked).state.calmed).state := by
  have returns : (deleteBoth refusedAndLocked.calmed).outcome = .ok 2 := by decide +kernel
  obtain ⟨again, same, -⟩ := retry_converges (.standard .top) _ refusedAndLocked 2 returns
  exact ⟨returns, by decide +kernel, by decide +kernel, by decide +kernel, again, same⟩

end Depot
