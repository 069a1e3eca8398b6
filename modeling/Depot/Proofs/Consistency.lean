/-
Rows without content, and the failures that leave them.

A deletion takes the content first, so one that fails after that leaves a row without content: the only way to get one.
In the stores after a history of the file service and the cleanup, a row has no content just if some step took its
content and left the row (`Step.Forfeits`), and such a step always says so: a deletion fails, and a cleanup puts on
record that it could not delete the file (`hasContent_iff`).
-/
import Depot.Proofs.Expiry
import Depot.Proofs.Selections

namespace Depot

open World

variable {l : Key.Location} {w t : World} {s : Step} {e : Entry} {o : Object} {k : String}
  {as : List Arrival} {steps : List Step}

/-! ## Contents that are lost -/

namespace Step

/-- the step says that it failed to delete a file: a deletion fails itself, a cleanup puts it on record -/
def Admits (l : Key.Location) (s : Step) (w : World) (e : Entry) : Prop :=
  match s.operation with
  | .delete .. | .deleteNamespace .. | .deleteSpaces _ | .deleteBefore _ => ∃ failure, (s.run l w).outcome = .error failure
  | .cleanup .. => .itemNotDeleted e.description ∈ (s.run l w).record
  | _ => False

/-- a step takes the content of a row and leaves the row, and says that it failed -/
structure Forfeits (l : Key.Location) (s : Step) (w : World) (e : Entry) : Prop where
  row : e ∈ w.files.rows
  content : w.HasContent l e
  kept : e ∈ (s.run l w).state.files.rows
  lost : ¬(s.run l w).state.HasContent l e
  admitted : s.Admits l w e

end Step

/-! ## Operations that take a content and leave the row -/

theorem not_hasContent (hk : l.key e.space e.id = .ok k) : ¬w.HasContent l e ↔ w.object? k = none := by
  constructor
  · intro lost
    cases ho : w.object? k with
    | none => rfl
    | some o => exact (lost ⟨k, o, hk, ho⟩).elim
  · rintro gone ⟨k', o, hk', ho⟩
    cases hk.symm.trans hk'
    cases gone.symm.trans ho

/-- a row is left while the object at its key goes -/
structure Bereft (l : Key.Location) (w t : World) (e : Entry) (k : String) (o : Object) : Prop where
  key : l.key e.space e.id = .ok k
  content : w.object? k = some o
  kept : e ∈ t.files.rows
  lost : t.object? k = none

theorem Bereft.false_of_bucket (h : Bereft l w t e k o) (same : t.bucket = w.bucket) : False := by
  have lost := h.lost
  rw [object?, same] at lost
  cases lost.symm.trans h.content

theorem Bereft.culled {selection : Selection} {r : Except Failure Nat} {more : List Event} (h : Bereft l w t e k o)
    (grounded : Grounded l as w) (plain : selection.Plain) (culled : Files.Culled l selection w r t more) :
    ∃ failure, r = .error failure := by
  cases r with
  | error failure => exact ⟨failure, rfl⟩
  | ok n =>
    obtain ⟨u, trimmed, hbucket, hfiles⟩ := culled
    have lost := h.lost
    obtain ⟨he, unasked⟩ := FileTable.mem_remove.1 (hfiles ▸ h.kept)
    obtain ⟨a, -, ha, hk, row, kept⟩ := grounded.shared he h.key h.content
    rcases trimmed.kept k o h.content with still | picked
    · rw [object?, hbucket] at lost
      cases lost.symm.trans still
    · rw [holds_of_picks plain ha hk kept row picked] at unasked
      cases unasked

theorem Entry.description_eq {e e' : Entry} (space : e.space = e'.space) (id : e.id = e'.id) :
    e.description = e'.description := by
  rw [description, description, space, id]

theorem Bereft.erased {space id key : String} {b : Bucket} (h : Bereft l w t e k o) (plain : Key.IsSegment e.space ∧
    Key.IsSegment e.id) (hspace : Key.IsSegment space) (hid : Key.IsSegment id) (hkey : l.key space id = .ok key)
    (hb : w.bucket = some b) (ht : t.bucket = some (b.erase [key])) : e.space = space ∧ e.id = id := by
  have lost := h.lost
  rw [object?_erase hb ht] at lost
  split at lost
  case isTrue erased => exact Key.Location.key_inj plain.1 hspace plain.2 hid h.key (List.mem_singleton.1 erased ▸ hkey)
  case isFalse => cases lost.symm.trans h.content

variable {site : Site}

theorem delete_bereft (grounded : Grounded site.location as w) {space id : String} (hspace : Key.IsSegment space)
    (hid : Key.IsSegment id) : (Files.delete site space id).Ends serve (fun r t _ =>
      ∀ e k o, Bereft site.location w t e k o → ∃ failure, r = .error failure) w [] := by
  refine (Files.delete_ends space id).mono fun r t more ht e k o h => ?_
  rcases ht with ⟨-, -, same⟩ | ⟨key, b, hkey, hb, ht, ⟨failed, -⟩ | ⟨-, hfiles⟩⟩
  · exact (h.false_of_bucket same.bucket).elim
  · exact failed
  · obtain ⟨he, unasked⟩ := FileTable.mem_remove.1 (hfiles ▸ h.kept)
    obtain ⟨hs, hi⟩ := h.erased (grounded.row_plain he) hspace hid hkey hb ht
    simp [FileQuery.holds, hs, hi] at unasked

theorem cleanup_bereft (grounded : Grounded site.location as w) (size : Option Int) (cutoff : Time.Timestamp) :
    (Retention.cleanup site size cutoff).Ends serve (fun _ t more =>
      ∀ e k o, Bereft site.location w t e k o → .itemNotDeleted e.description ∈ more) w [] := by
  let J (t : World) (more : List Event) : Prop :=
    Shrinks w t ∧ ∀ e k o, Bereft site.location w t e k o → .itemNotDeleted e.description ∈ more
  have loop : (Retention.cleanup site size cutoff).Ends serve (fun _ t more => J t more) w [] := by
    refine Retention.cleanup_ends (fun e => Key.IsSegment e.space ∧ Key.IsSegment e.id) ?note ?reads ?rows ?delete size
      ⟨.refl w, fun e k o h => (h.false_of_bucket rfl).elim⟩
    case note => exact fun e t more ht => ⟨ht.1, fun e k o h => List.mem_cons_of_mem _ (ht.2 e k o h)⟩
    case reads =>
      intro c t more hc ht
      have same := serve_reads hc t
      refine ⟨ht.1.trans same.shrinks, fun e k o h => ht.2 e k o ⟨h.key, h.content, same.files ▸ h.kept, ?_⟩⟩
      exact (same.object? k).symm.trans h.lost
    case rows => exact fun t more ht e he => grounded.row_plain (ht.1.rows e he)
    case delete =>
      rintro n hn x t more hx ⟨less, recorded⟩
      refine (Retention.deleteSafely_ends hn x).mono fun _ u more' hu => ?_
      obtain ⟨suffix, same | ⟨key, b, hkey, hb, hu, rows⟩⟩ := hu
      · refine ⟨less.trans same.shrinks, fun e k o h => suffix.subset (recorded e k o ⟨h.key, h.content, ?_, ?_⟩)⟩
        · exact same.files ▸ h.kept
        · exact (same.object? k).symm.trans h.lost
      · have left : ∀ e ∈ u.files.rows, e ∈ t.files.rows := by
          intro e he
          rcases rows with ⟨hfiles, -⟩ | hfiles
          · exact hfiles ▸ he
          · exact (FileTable.mem_remove.1 (hfiles ▸ he)).1
        refine ⟨less.trans (shrinks_of_erase hb hu left), fun e k o h => ?_⟩
        have he := left e h.kept
        cases ho : t.object? k with
        | none => exact suffix.subset (recorded e k o ⟨h.key, h.content, he, ho⟩)
        | some o' =>
          have now : Bereft site.location t u e k o' := ⟨h.key, ho, h.kept, h.lost⟩
          obtain ⟨hs, hi⟩ := now.erased (grounded.row_plain (less.rows e he)) hx.1 hx.2 hkey hb hu
          rcases rows with ⟨-, mem⟩ | hfiles
          · exact Entry.description_eq hs hi ▸ mem
          · have unasked := (FileTable.mem_remove.1 (hfiles ▸ h.kept)).2
            simp [FileQuery.holds, hs, hi] at unasked
  exact loop.mono fun _ t more ht => ht.2

/-! ## Steps -/

namespace Step

theorem not_bereft_of_upload (upload : s.operation.isUpload = true) (h : Bereft l w (s.run l w).state e k o) : False := by
  cases ha : s.arrival? with
  | none => exact h.false_of_bucket (s.same_of_upload upload ha).bucket
  | some a =>
    rcases s.brings ha (l := l) (w := w) with same | ⟨key, b, -, hb, ht, -⟩
    · exact h.false_of_bucket same.bucket
    · have lost := h.lost
      rw [object?_put hb ht] at lost
      split at lost
      · cases lost
      · cases lost.symm.trans h.content

theorem fails_of_bereft {α : Type} {p : Op α} (program : s.operation.program (s.site l w) = p.void)
    (ends : p.Ends serve (fun r t _ => ∀ e k o, Bereft l (s.start w) t e k o → ∃ failure, r = .error failure) (s.start w) [])
    (h : Bereft l w (s.run l w).state e k o) : ∃ failure, (s.run l w).outcome = .error failure := by
  refine run_of_ends (l := l) (w := w) (s := s)
    (Q := fun r t _ => Bereft l (s.start w) t e k o → ∃ failure, r = .error failure) ?_ ⟨h.key, h.content, h.kept, h.lost⟩
  rw [program]
  refine Prog.ends_void.2 (ends.mono fun r t more ht lost => ?_)
  obtain ⟨failure, failed⟩ := ht e k o lost
  exact ⟨failure, by rw [failed]; rfl⟩

theorem removal_admits (grounded : Grounded l as w) (plain : s.operation.Plain) (removes : s.operation.removes = true)
    (h : Bereft l w (s.run l w).state e k o) : s.Admits l w e := by
  have start : Grounded (s.site l w).location as (s.start w) := grounded.then_same (s.start_stores w)
  have culls : ∀ selection : Selection, selection.Plain →
      (Files.deleteSelected (s.site l w) selection).Ends serve (fun r t _ =>
        ∀ e k o, Bereft l (s.start w) t e k o → ∃ failure, r = .error failure) (s.start w) [] :=
    fun _ hselection => (Files.deleteSelected_ends _).mono fun r t more ht e k o lost => lost.culled start hselection ht
  rw [Admits]
  cases operation : s.operation with
  | delete space id =>
    rw [operation] at plain
    exact fails_of_bereft (by rw [operation]; rfl) (delete_bereft start plain.1 plain.2) h
  | deleteNamespace space ns =>
    rw [operation] at plain
    exact fails_of_bereft (by rw [operation]; rfl) (culls (.inNamespace space ns) plain) h
  | deleteSpaces spaces =>
    rw [operation] at plain
    exact fails_of_bereft (by rw [operation]; rfl) (culls (.inSpaces spaces) plain) h
  | deleteBefore cutoff =>
    refine fails_of_bereft (p := Files.deleteBefore (s.site l w) cutoff) (by rw [operation]; rfl) ?_ h
    exact (culls (.before cutoff) trivial).bind (fun n t more ht e k o lost => by simpa using ht e k o lost)
      (fun failure t more ht => ht)
  | sweep =>
    refine (h.false_of_bucket (s.bucket_eq ?_)).elim
    rw [operation]
    exact (Files.only_sweep.mono fun _ hc => hc.1).void
  | cleanup size cutoff =>
    refine run_of_ends (l := l) (w := w) (s := s) (Q := fun _ t more => Bereft l (s.start w) t e k o →
      .itemNotDeleted e.description ∈ more) ?_ ⟨h.key, h.content, h.kept, h.lost⟩
    rw [operation]
    exact Prog.ends_void.2 ((cleanup_bereft start size cutoff).mono fun _ t more ht => ht e k o)
  | _ =>
    rw [operation] at removes
    cases removes

/-- **A step that takes the content of a row and leaves the row says that it failed.** -/
theorem admits_of_bereft (grounded : Grounded l as w) (plain : s.operation.Plain)
    (h : Bereft l w (s.run l w).state e k o) : s.Admits l w e := by
  cases removes : s.operation.removes with
  | true => exact removal_admits grounded plain removes h
  | false =>
    cases upload : s.operation.isUpload with
    | true => exact (not_bereft_of_upload upload h).elim
    | false => exact (h.false_of_bucket (s.same_of_reads (Operation.only_reads plain upload removes)).bucket).elim

end Step

/-! ## Histories -/

/-- a row is new only if its upload kept its content -/
theorem Step.content_of_new_row (old : e ∉ w.files.rows) (new : e ∈ (s.run l w).state.files.rows) :
    (s.run l w).state.HasContent l e := by
  cases ha : s.arrival? with
  | none => exact absurd ((s.shrinks ha).rows e new) old
  | some a =>
    rcases s.brings ha (l := l) (w := w) with same | ⟨key, b, hkey, hb, ht, ⟨hfiles, -⟩ | ⟨e', row, hrows⟩⟩
    · exact absurd (same.files ▸ new) old
    · exact absurd (hfiles ▸ new) old
    · rw [hrows, List.mem_append, List.mem_singleton] at new
      obtain rfl := new.resolve_left old
      exact ⟨key, a.object, row.space ▸ row.id ▸ hkey, by rw [object?_put hb ht, if_pos rfl]⟩

/-- a step that leaves a row without its content forfeits it -/
theorem Step.forfeits (grounded : Grounded l as w) (plain : s.operation.Plain) (row : e ∈ w.files.rows)
    (content : w.HasContent l e) (kept : e ∈ (s.run l w).state.files.rows) (lost : ¬(s.run l w).state.HasContent l e) :
    s.Forfeits l w e := by
  refine ⟨row, content, kept, lost, ?_⟩
  obtain ⟨k, o, hk, ho⟩ := content
  exact admits_of_bereft grounded plain ⟨hk, ho, kept, (not_hasContent hk).1 lost⟩

/-- a key without an object stays so while no upload has it -/
theorem object?_after (steps : List Step) (others : ∀ a ∈ arrivals steps, l.key a.space a.id ≠ .ok k)
    (h : w.object? k = none) : (after l w steps).object? k = none := by
  induction steps generalizing w with
  | nil => exact h
  | cons s steps ih =>
    rw [arrivals_cons] at others
    refine ih (fun a ha => others a (List.mem_append_right _ ha)) ?_
    cases ha : s.arrival? with
    | none =>
      cases ho : (s.run l w).state.object? k with
      | none => rfl
      | some o => exact ((s.shrinks ha).objects k o ho).symm.trans h
    | some a =>
      rcases s.brings ha (l := l) (w := w) with same | ⟨key, b, hkey, hb, ht, -⟩
      · exact (same.object? k).trans h
      · rw [object?_put hb ht, if_neg, h]
        rintro rfl
        exact others a (by simp [ha]) hkey

/-- **A row has its content unless a failed deletion took it.** In the stores after a plain history a row has no content
just if some step took the content, left the row, and said that it failed. -/
theorem hasContent_iff (l : Key.Location) (steps : List Step) (plain : PlainHistory steps) :
    ∀ e ∈ (after l .fresh steps).files.rows, (after l .fresh steps).HasContent l e ↔
      ¬∃ before s later, steps = before ++ s :: later ∧ s.Forfeits l (after l .fresh before) e := by
  intro e he
  constructor
  · rintro ⟨k, o, hk, ho⟩ ⟨before, s, later, rfl, forfeit⟩
    have ids := plain.ids
    rw [List.append_cons, arrivals_append] at ids
    rw [List.append_cons, after_append, after_snoc] at ho
    have gone : (s.run l (after l .fresh before)).state.object? k = none := (not_hasContent hk).1 forfeit.lost
    obtain ⟨a, ha, row, -⟩ := (after_stored l (before ++ [s])).rows e (after_snoc (l := l) ▸ forfeit.kept)
    refine absurd ho ?_
    rw [object?_after later (fun b hb hkb => ?_) gone]
    · simp
    · have same : b = a := ids.eq_of_key (List.mem_append_right _ hb) (List.mem_append_left _ ha) hkb
        (row.space ▸ row.id ▸ hk)
      have distinct := ids.distinct
      rw [List.map_append, List.nodup_append] at distinct
      exact distinct.2.2 a.id (List.mem_map_of_mem ha) b.id (List.mem_map_of_mem hb) (congrArg Arrival.id same.symm)
  · intro never
    induction steps using List.reverseRecOn with
    | nil => simp [after, fresh, FileTable.empty] at he
    | append_singleton steps s ih =>
      rw [after_snoc] at he ⊢
      by_cases old : e ∈ (after l .fresh steps).files.rows
      · have had : (after l .fresh steps).HasContent l e := by
          refine ih plain.of_append old ?_
          rintro ⟨before, s', later, split, forfeit⟩
          exact never ⟨before, s', later ++ [s], by rw [split, List.append_assoc, List.cons_append], forfeit⟩
        by_contra lost
        refine never ⟨steps, s, [], rfl, s.forfeits plain.of_append.grounded ?_ old had he lost⟩
        exact plain.operations s (by simp)
      · exact s.content_of_new_row old he

/-- an upload, and its deletion, whose statement fails -/
def lostContent : List Step :=
  [.upload "s" "1", (Step.fresh (.delete "s" "1")).struck .deleteFiles .database]

theorem hasContent_iff_lostContent : PlainHistory lostContent ∧ ∃ e ∈ (after .top .fresh lostContent).files.rows,
    ∃ before s later, lostContent = before ++ s :: later ∧ s.Forfeits .top (after .top .fresh before) e := by
  have plain : PlainHistory lostContent :=
    ⟨⟨by decide +kernel, by decide +kernel⟩, by decide +kernel, by decide +kernel⟩
  obtain ⟨e, first⟩ : ∃ e, (after .top .fresh lostContent).files.rows.head? = some e :=
    Option.isSome_iff_exists.1 (by decide +kernel)
  have row : e ∈ (after .top .fresh lostContent).files.rows := List.mem_of_head? first
  have bare : (after .top .fresh lostContent).bucket.map (·.keys) = some [] := by decide +kernel
  refine ⟨plain, e, row, not_not.1 (mt (hasContent_iff .top lostContent plain e row).2 ?_)⟩
  rintro ⟨k, o, -, ho⟩
  obtain ⟨b, hb, there⟩ := Option.bind_eq_some_iff.1 ho
  have keys : b.keys = [] := by simpa [hb] using bare
  simpa [keys] using Bucket.mem_keys_iff.2 ⟨o, there⟩

end Depot
