/-
Failures leave the rows as they are.

Each operation that changes rows does so with one statement, and nothing fails after it. So a deletion that fails has
removed no row, and no content but those it was to remove (`Deletion.program_ends`); a failed upload has added no row,
and at most its own content (`Files.add_uploads`, `Files.addExisting_uploads`); and a failed sweep has changed nothing
(`Files.sweep_sweeps`). Where an operation ends well, the rows that are gone are those that it was to remove, and their
number is the one it gives; an upload has added the row of the entry it gives, and no other (`failures_keep_rows`).
-/
import Mathlib.Tactic
import Depot.Proofs.Coverage
import Depot.Proofs.Uploads

namespace Depot

open World

variable {w t u : World} {events : List Event} {site : Site} {l : Key.Location} {space id : String}

/-- what is known of the end of an operation is known of its run -/
theorem World.run_of_ends {α : Type} {p : Op α} {Q : Prog.Goal World α} (h : p.Ends serve Q w []) :
    Q (w.run p).outcome (w.run p).state (w.run p).record :=
  (Prog.ends_iff _ _ _ _).1 h

/-! ## Deletions -/

/-- what is to be deleted: one file, or those of a selection -/
inductive Deletion where
  | file (space id : String)
  | selected (selection : Selection)

namespace Deletion

/-- deletes files, and counts the rows that were removed; that one file had a row counts as one -/
def program (site : Site) : Deletion → Op Nat
  | .file space id => do pure (← Files.delete site space id).toNat
  | .selected (.inNamespace space ns) => Files.deleteNamespace site space ns
  | .selected (.inSpaces spaces) => Files.deleteSpaces site spaces
  | .selected (.before cutoff) => Files.deleteBefore site cutoff

def query : Deletion → FileQuery
  | .file space id => .file space id
  | .selected selection => Files.queryOf selection

/-- the object at a key is to be removed -/
def Takes (l : Key.Location) : Deletion → String → Object → Prop
  | .file space id, k, _ => l.key space id = .ok k
  | .selected selection, k, o => selection.Picks l k o

/-- a run of a deletion removes no objects but those to be removed, and the rows asked for, unless it fails -/
structure Deletes (l : Key.Location) (d : Deletion) (w : World) (run : Prog.Run World Nat) : Prop where
  rows : match run.outcome with
    | .error _ => run.state.files = w.files
    | .ok n => run.state.files = w.files.remove d.query ∧ n = (w.files.select d.query).length
  objects : ∀ k o, run.state.object? k = some o → w.object? k = some o
  kept : ∀ k o, w.object? k = some o → run.state.object? k = some o ∨ d.Takes l k o

theorem Deletes.unasked {d : Deletion} {run : Prog.Run World Nat} {e : Entry} (deletes : d.Deletes l w run)
    (he : e ∈ w.files.rows) (unasked : d.query.holds e = false) : e ∈ run.state.files.rows := by
  have rows := deletes.rows
  cases outcome : run.outcome with
  | error failure =>
    rw [outcome] at rows
    exact rows.symm ▸ he
  | ok n =>
    rw [outcome] at rows
    exact rows.1.symm ▸ FileTable.mem_remove.2 ⟨he, unasked⟩

end Deletion

theorem FileTable.length_select_file (table : FileTable) (space id : String) :
    (table.select (.file space id)).length ≤ 1 := by
  have ids : ((table.select (.file space id)).map (·.id)).Nodup :=
    table.distinct.sublist (List.filter_sublist.map _)
  have same : ∀ e ∈ table.select (.file space id), e.id = id := by
    intro e he
    have held := (List.mem_filter.1 he).2
    simp only [FileQuery.holds, Bool.and_eq_true, beq_iff_eq] at held
    exact held.2
  rcases rows : table.select (.file space id) with _ | ⟨e, _ | ⟨e', rest⟩⟩
  · simp
  · simp
  · rw [rows] at ids same
    have differ : e.id ≠ e'.id := fun eq => by simp [eq] at ids
    exact absurd ((same e (by simp)).trans (same e' (by simp)).symm) differ

namespace Files

theorem delete_deletes (space id : String) : ((Deletion.file space id).program site).Ends serve
    (fun r t more => (Deletion.file space id).Deletes site.location w ⟨r, t, more⟩) w events := by
  have one := w.files.length_select_file space id
  refine Prog.Ends.bind
    (R := fun r t more => (Deletion.file space id).Deletes site.location w ⟨r.map Bool.toNat, t, more⟩)
    ?_ (fun _ t more h => h) (fun _ t more h => h)
  refine (delete_ends space id).mono fun r t more ht => ?_
  rcases ht with ⟨failure, rfl, same⟩ | ⟨key, b, hkey, hb, ht, rows⟩
  · refine ⟨same.files, ?_, ?_⟩
    · intro k o ho
      exact (same.object? k).symm.trans ho
    · intro k o ho
      exact .inl ((same.object? k).trans ho)
  · refine ⟨?_, ?_, ?_⟩
    · rcases rows with ⟨⟨failure, rfl⟩, hfiles⟩ | ⟨rfl, hfiles⟩
      · exact hfiles
      · refine ⟨hfiles, ?_⟩
        show (decide (0 < (w.files.select (.file space id)).length)).toNat = (w.files.select (.file space id)).length
        by_cases found : 0 < (w.files.select (.file space id)).length
        · rw [decide_eq_true found]
          exact Nat.le_antisymm found one
        · rw [decide_eq_false found]
          exact (Nat.eq_zero_of_not_pos found).symm
    · intro k o ho
      rw [object?_erase hb ht] at ho
      split at ho
      · cases ho
      · exact ho
    · intro k o ho
      rw [object?_erase hb ht]
      split
      case isTrue same => exact .inr (List.mem_singleton.1 same ▸ hkey)
      case isFalse => exact .inl ho

theorem deleteSelected_deletes (selection : Selection) : (deleteSelected site selection).Ends serve
    (fun r t more => (Deletion.selected selection).Deletes site.location w ⟨r, t, more⟩) w events := by
  unfold deleteSelected
  refine (Content.deleteMatching_ends selection).bind (fun _ t more trimmed => ?_) (fun failure t more trimmed => ?_)
  · refine (statement_remove_ends _ (queryOf selection)).mono fun r u more hu => ?_
    rcases hu with ⟨failure, rfl, same⟩ | ⟨rfl, hbucket, hrows⟩
    · have trimmed := trimmed.then_same same
      exact ⟨trimmed.files, trimmed.objects, trimmed.kept⟩
    · have same : ∀ k, u.object? k = t.object? k := fun k => by rw [object?, object?, hbucket]
      rw [trimmed.files] at hrows ⊢
      refine ⟨⟨hrows, rfl⟩, ?_, ?_⟩
      · intro k o ho
        exact trimmed.objects k o ((same k).symm.trans ho)
      · intro k o ho
        exact (trimmed.kept k o ho).imp_left (same k).trans
  · exact ⟨trimmed.files, trimmed.objects, trimmed.kept⟩

end Files

/-- **A deletion removes what was asked for, or no row.** -/
theorem Deletion.program_ends (site : Site) (d : Deletion) :
    (d.program site).Ends serve (fun r t more => d.Deletes site.location w ⟨r, t, more⟩) w events := by
  cases d with
  | file space id => exact Files.delete_deletes space id
  | selected selection =>
    cases selection with
    | inNamespace space ns => exact Files.deleteSelected_deletes (.inNamespace space ns)
    | inSpaces spaces => exact Files.deleteSelected_deletes (.inSpaces spaces)
    | before cutoff =>
      refine (Files.deleteSelected_deletes (.before cutoff)).bind (fun n t more h => ?_) (fun failure t more h => ?_)
      · exact ⟨h.rows, h.objects, h.kept⟩
      · exact ⟨h.rows, h.objects, h.kept⟩

/-! ## Uploads -/

/-- a run of an upload adds the row of the entry that it gives, with its time in UTC, or no row if it fails; what is at
other keys than its own stays as it is, and at its own key it may have put its content -/
structure Files.Uploads (l : Key.Location) (space id : String) (w : World) (run : Prog.Run World Entry) : Prop where
  rows : match run.outcome with
    | .error _ => run.state.files = w.files
    | .ok e => e.id = id ∧ e.space = space ∧ ∃ utc, e.modified.toUtc? = some utc ∧
      run.state.files.rows = w.files.rows ++ [{ e with modified := utc }]
  objects : ∀ k, run.state.object? k = w.object? k ∨ l.key space id = .ok k ∧ (run.state.object? k).isSome

namespace Files.Uploads

variable {r : Except Failure Entry} {more : List Event}

theorem of_same {failure : Failure} (same : SameStores w t) : Uploads l space id w ⟨.error failure, t, more⟩ :=
  ⟨same.files, fun k => .inl (same.object? k)⟩

theorem then_same {more' : List Event} (h : Uploads l space id w ⟨r, t, more⟩) (same : SameStores t u) :
    Uploads l space id w ⟨r, u, more'⟩ := by
  refine ⟨?_, ?_⟩
  · have rows := h.rows
    cases r with
    | error failure => exact same.files.trans rows
    | ok e =>
      show _ ∧ _ ∧ ∃ utc, _ ∧ u.files.rows = _
      rw [same.files]
      exact rows
  · intro k
    show u.object? k = _ ∨ _ ∧ (u.object? k).isSome
    rw [same.object? k]
    exact h.objects k

theorem after_same {run : Prog.Run World Entry} (same : SameStores w t) (h : Uploads l space id t run) :
    Uploads l space id w run := by
  obtain ⟨rows, objects⟩ := h
  rw [same.files] at rows
  simp only [same.object?] at objects
  exact ⟨rows, objects⟩

end Files.Uploads

theorem Upload.removeStaged_ends {path : Disk.Path} (checked : Disk.check path = .ok ()) :
    (removeStaged path).Ends serve (fun r t _ => r = .ok () ∧ Aside w t) w events := by
  have aside : Aside w (serve (.removeFile path) w).2 := serve_local (by exact trivial) w
  unfold removeStaged
  rw [Op.ends_ask_bind]
  cases removed : w.disk.remove path with
  | ok disk =>
    have reply : (serve (.removeFile path) w).1 = .ok () := by simp only [serve, removed]
    rw [reply]
    exact ⟨rfl, aside⟩
  | error trouble =>
    have reply : (serve (.removeFile path) w).1 = .error (.file trouble path) := by simp only [serve, removed]
    have system : (Fault.file trouble path).isSystemFault = true := by
      rw [Fault.isSystemFault, bne_iff_ne]
      exact Disk.remove_error checked removed
    rw [reply]
    show (if (Fault.file trouble path).isSystemFault = true then _ else _ : Op Unit).Ends _ _ _ _
    rw [if_pos system]
    exact ⟨rfl, aside⟩

namespace Files

theorem insert_row_ends (e : Entry) (task : Task) :
    (statement task (do
      let utc ← inUtc e.modified
      Prog.ofReply (← Op.ask (.insertFile { e with modified := utc })))).Ends serve
    (fun r t _ => (∃ failure, r = .error failure ∧ SameStores w t) ∨
      r = .ok () ∧ ∃ utc, e.modified.toUtc? = some utc ∧ t.bucket = w.bucket ∧
        t.files.rows = w.files.rows ++ [{ e with modified := utc }]) w events := by
  refine (Prog.ends_watch _ (fun r t _ => (∃ failure, r = .error failure ∧ SameStores w t.1) ∨
    r = .ok () ∧ ∃ utc, e.modified.toUtc? = some utc ∧ t.1.bucket = w.bucket ∧
      t.1.files.rows = w.files.rows ++ [{ e with modified := utc }]) w events).1
        ((insert_ends e False task).mono fun r t more ht => ?_)
  rcases ht with ⟨failure, failed, same, -⟩ | added
  · exact .inl ⟨failure, failed, same⟩
  · exact .inr added

theorem keep_uploads (e : Entry) (content : ByteArray) (task : Task) (last : Event) :
    (do
      Content.put site e content
      statement task do
        let utc ← inUtc e.modified
        Prog.ofReply (← Op.ask (.insertFile { e with modified := utc }))
      Prog.record last
      pure e : Op Entry).Ends serve (fun r t more => Uploads site.location e.space e.id w ⟨r, t, more⟩) w events := by
  apply (Content.put_ends e content).bind_either
  · rintro t more ⟨key, b, hkey, hb, ht, hfiles⟩
    have objects : ∀ v : World, v.bucket = t.bucket → ∀ k, v.object? k = w.object? k ∨
        site.location.key e.space e.id = .ok k ∧ (v.object? k).isSome := by
      intro v hv k
      rw [object?_put hb (hv.trans ht)]
      split
      case isTrue own => exact .inr ⟨own ▸ hkey, rfl⟩
      case isFalse => exact .inl rfl
    apply (insert_row_ends e task).bind_either
    · rintro u more ⟨utc, hutc, hbucket, hrows⟩
      exact ⟨⟨rfl, rfl, utc, hutc, hfiles ▸ hrows⟩, objects u hbucket⟩
    · intro failure u more same
      exact ⟨same.files.trans hfiles, objects u same.bucket⟩
  · intro failure t more same
    exact .of_same same

/-- **From the store on, an upload adds the row of its entry, or none.** -/
theorem store_uploads {name : String} {ns : Option String} {file : Upload.LocalFile} :
    (store site space ns name file).Ends serve
      (fun r t more => Uploads site.location space w.freshId.1 w ⟨r, t, more⟩) w events := by
  obtain ⟨stores, -, -⟩ := freshId_keeps w
  unfold store
  rw [Op.ends_ask_bind, Op.ends_ask_bind]
  obtain ⟨before, hbefore⟩ : ∃ before, (serve .now (serve .freshId w).2).2 = before := ⟨_, rfl⟩
  have same : SameStores w before := hbefore ▸ stores.trans ⟨rfl, rfl⟩
  rw [hbefore]
  dsimp only
  rw [Op.ends_ask_bind]
  have reply : serve (.readFile file.path) before = (ofDisk file.path (before.disk.read file.path), before) := rfl
  rw [reply]
  cases read : before.disk.read file.path with
  | error trouble => exact .of_same same
  | ok content => exact (keep_uploads _ content _ _).mono fun r t more h => h.after_same same

theorem add_uploads (space : String) (ns : Option String) (name : String) (s : Stream) :
    (add site space ns name s).Ends serve
      (fun r t more => Uploads site.location space w.freshId.1 w ⟨r, t, more⟩) w events := by
  unfold add
  refine (receive_ends s).bind (fun file t more h => ?_) (fun failure t more h => .of_same h.1.toSameStores)
  obtain ⟨aside, received⟩ := h
  rw [Prog.ends_bind, Prog.ends_attempt]
  refine store_uploads.mono fun r u more hu => ?_
  rw [freshId_eq aside.ids aside.serial] at hu
  refine (Upload.removeStaged_ends (received file rfl).2).bind (fun _ v more hv => ?_) (fun failure v more hv => ?_)
  · rw [Prog.ends_ofExcept]
    exact (hu.then_same hv.2.toSameStores).after_same aside.toSameStores
  · cases hv.1

theorem addExisting_uploads (space : String) (ns : Option String) (name : String) (path : Disk.Path) :
    (addExisting site space ns name path).Ends serve
      (fun r t more => Uploads site.location space w.freshId.1 w ⟨r, t, more⟩) w events := by
  unfold addExisting
  cases site.digestAlgorithm with
  | none => exact .of_same (.refl w)
  | some algorithm =>
    refine (Upload.describe_ends path algorithm).bind (fun file t more h => ?_) (fun failure t more h => ?_)
    · obtain ⟨rfl, -⟩ := h
      exact store_uploads
    · obtain ⟨rfl, -⟩ := h
      exact .of_same (.refl t)

/-! ## Sweeps -/

/-- a run of a sweep leaves the bucket as it is and removes the rows whose content it did not find, unless it fails -/
structure Sweeps (l : Key.Location) (w : World) (run : Prog.Run World Nat) : Prop where
  bucket : run.state.bucket = w.bucket
  rows : match run.outcome with
    | .error _ => run.state.files = w.files
    | .ok n => ∃ missing : List Entry, missing.Sublist w.files.rows ∧
      (∀ e ∈ w.files.rows, e ∈ missing ↔ ¬w.Finds l w.files.rows e) ∧
      run.state.files.rows = w.files.rows.filter (fun e => !missing.contains e) ∧ n = missing.length

theorem Sweeps.same {l : Key.Location} {n : Nat} {t : World} {more : List Event} (h : Sweeps l w ⟨.ok n, t, more⟩)
    (found : ∀ e ∈ w.files.rows, w.Finds l w.files.rows e) : n = 0 ∧ SameStores w t := by
  obtain ⟨missing, sub, finds, rows, counted⟩ := h.rows
  have nothing : missing = [] := by
    rw [List.eq_nil_iff_forall_not_mem]
    intro e he
    exact (finds e (sub.subset he)).1 he (found e (sub.subset he))
  have kept : t.files.rows = w.files.rows := by
    rw [rows, nothing]
    exact List.filter_eq_self.2 fun _ _ => rfl
  refine ⟨by rw [counted, nothing]; rfl, h.bucket, ?_⟩
  exact FileTable.eq_of_rows kept

theorem select_all_ends : (select .all).Ends serve (fun r t _ => SameStores w t ∧
    ∀ rows, r = .ok rows → rows = w.files.rows) w events := by
  have all : w.files.select .all = w.files.rows := List.filter_eq_self.2 fun _ _ => rfl
  have same : SameStores w (serve (.selectFiles .all) w).2 := serve_reads (by exact trivial) w
  show (Op.ask (.selectFiles .all) >>= _).Ends _ _ _ _
  rw [Op.ends_ask_bind]
  refine (Prog.ends_ofReply _).2 ⟨same, ?_⟩
  rcases serve_select w .all with ⟨f, reply⟩ | reply
  · rw [reply]
    rintro rows ⟨⟩
  · rw [reply, all]
    rintro rows ⟨⟩
    rfl

end Files

namespace FileTable

variable {table : FileTable} {rows : List Entry}

/-- some of the rows, asked for by their ids -/
theorem holds_withIds (sub : rows.Sublist table.rows) {e : Entry} (he : e ∈ table.rows) :
    (FileQuery.withIds (rows.map (·.id))).holds e = rows.contains e := by
  rw [FileQuery.holds, Bool.eq_iff_iff, List.contains_iff_mem, List.contains_iff_mem, List.mem_map]
  constructor
  · rintro ⟨e', he', same⟩
    exact List.inj_on_of_nodup_map table.distinct (sub.subset he') he same ▸ he'
  · exact fun mem => ⟨e, mem, rfl⟩

theorem rows_remove_withIds (sub : rows.Sublist table.rows) :
    (table.remove (.withIds (rows.map (·.id)))).rows = table.rows.filter fun e => !rows.contains e :=
  List.filter_congr fun e he => by rw [holds_withIds sub he]

theorem length_select_withIds (sub : rows.Sublist table.rows) :
    (table.select (.withIds (rows.map (·.id)))).length = rows.length := by
  have distinct : table.rows.Nodup := table.distinct.of_map
  refine ((List.perm_ext_iff_of_nodup (distinct.filter _) (distinct.sublist sub)).2 fun e => ?_).length_eq
  rw [List.mem_filter]
  constructor
  · rintro ⟨he, held⟩
    rw [holds_withIds sub he] at held
    simpa using held
  · intro he
    refine ⟨sub.subset he, ?_⟩
    rw [holds_withIds sub (sub.subset he)]
    simpa using he

end FileTable

namespace Files

/-- **A sweep removes the rows whose content it does not find, or nothing.** -/
theorem sweep_sweeps : (sweep site).Ends serve (fun r t more => Sweeps site.location w ⟨r, t, more⟩) w events := by
  unfold sweep
  have listed : (statement .listAllEntries (select .all)).Ends serve (fun r t _ => SameStores w t ∧
      ∀ rows, r = .ok rows → rows = w.files.rows) w events :=
    Op.ends_account select_all_ends (fun _ _ _ h => h) (fun _ _ _ _ _ h _ => ⟨h.1, by simp⟩)
  refine listed.bind (fun rows t more h => ?_) (fun failure t more h => ⟨h.1.bucket, h.1.files⟩)
  obtain ⟨same, all⟩ := h
  obtain rfl := all rows rfl
  refine (Content.withoutContent_ends w.files.rows).bind (fun missing u more h => ?_)
    (fun failure u more h => ⟨(same.trans h.1).bucket, (same.trans h.1).files⟩)
  obtain ⟨unchanged, found⟩ := h
  obtain ⟨sub, found⟩ := found missing rfl
  have finds : ∀ e ∈ w.files.rows, e ∈ missing ↔ ¬w.Finds site.location w.files.rows e := by
    intro e he
    rw [found e he]
    simp only [World.Finds, same.object?]
  have stores := same.trans unchanged
  split
  case isTrue nothing =>
    have kept : w.files.rows.filter (fun e => !missing.contains e) = w.files.rows := by
      rw [nothing]
      exact List.filter_eq_self.2 fun _ _ => rfl
    exact ⟨stores.bucket, missing, sub, finds, by rw [kept, stores.files], by rw [nothing]; rfl⟩
  case isFalse =>
    refine (Prog.ends_records _ missing _ _).bind (fun _ v more hv => ?_) (fun failure v more hv => by cases hv.1)
    obtain ⟨-, rfl⟩ := hv
    refine (statement_remove_ends _ _).mono fun r x more hx => ?_
    rcases hx with ⟨failure, rfl, failed⟩ | ⟨rfl, hbucket, hfiles⟩
    · exact ⟨(stores.trans failed).bucket, (stores.trans failed).files⟩
    rw [stores.files] at hfiles
    refine ⟨hbucket.trans stores.bucket, missing, sub, finds, ?_, ?_⟩
    · rw [hfiles, FileTable.rows_remove_withIds sub]
    · rw [stores.files, FileTable.length_select_withIds sub]

end Files

/-! ## All operations -/

/-- **A failure leaves the rows as they are.** A deletion, an upload or a sweep that fails changes no row; it has
removed at most contents that it was to remove, put at most its own content, or changed nothing. One that ends well
removes the rows that it was to remove and gives their number, or adds the row of the entry that it gives. -/
theorem failures_keep_rows (site : Site) (w : World) :
    (∀ d : Deletion, d.Deletes site.location w (w.run (d.program site))) ∧
    (∀ space ns name stream,
      Files.Uploads site.location space w.freshId.1 w (w.run (Files.add site space ns name stream))) ∧
    (∀ space ns name path,
      Files.Uploads site.location space w.freshId.1 w (w.run (Files.addExisting site space ns name path))) ∧
    Files.Sweeps site.location w (w.run (Files.sweep site)) := by
  refine ⟨?deletion, ?upload, ?existing, ?sweep⟩
  case deletion =>
    intro d
    exact run_of_ends (d.program_ends site)
  case upload =>
    intro space ns name stream
    exact run_of_ends (Files.add_uploads space ns name stream)
  case existing =>
    intro space ns name path
    exact run_of_ends (Files.addExisting_uploads space ns name path)
  case sweep => exact run_of_ends Files.sweep_sweeps

end Depot
