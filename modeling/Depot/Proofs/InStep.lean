/-
Rows and contents stay in step.

Uploads bring a content and its row, or a content whose row could not be added. Where no fault and no lock hits the
operations that remove, these take a row just if they take its content: a bulk deletion asks the database for the very
uploads whose contents it picks (`InStep.culled`), a sweep finds no content missing (`InStep.sweep_ends`), and the
cleanup deletes file by file (`InStep.cleanup_ends`). So after any history each row has its content, and each content
belongs to a row or to an upload whose row could not be added (`rows_and_contents_in_step`).
-/
import Depot.Proofs.Atomicity
import Depot.Proofs.Completion
import Depot.Proofs.Selections
import Depot.Proofs.Spared

namespace Depot

open World Key

variable {l : Location} {orphan : String → Prop} {w t : World} {s : Step} {steps : List Step} {a : Arrival}
  {as : List Arrival} {site : Site} {selection : Selection} {events : List Event} {space id key : String} {b : Bucket}

/-- each row has its content, and each content has its row but for orphans -/
structure InStep (l : Location) (orphan : String → Prop) (w : World) : Prop where
  rows : ∀ e ∈ w.files.rows, w.HasContent l e
  objects : ∀ k o, w.object? k = some o → (∃ e ∈ w.files.rows, l.key e.space e.id = .ok k) ∨ orphan k

/-- the distance from UTC is known, and there is a date in UTC -/
structure Time.Timestamp.InUtc (time : Time.Timestamp) : Prop where
  known : time.offset.isSome
  date : time.toUtc? ≠ none

/-- the cutoff of a selection, if it has one, is a time in UTC -/
def Selection.Timely : Selection → Prop
  | .before cutoff => cutoff.InUtc
  | _ => True

/-! ## Operations -/

/-- the cutoff of a deletion by time is in UTC -/
def Operation.Timely : Operation → Prop
  | .deleteBefore cutoff => cutoff.InUtc
  | _ => True

/-! ## Where contents are looked for -/

namespace Grounded

theorem sound_of_row {e : Entry} (h : Grounded l as w) (he : e ∈ w.files.rows) : l.Sound := by
  obtain ⟨a, ha, -, k, hk⟩ := h.stored.rows e he
  exact Location.sound_of_key (h.plain a ha).space (h.plain a ha).id hk

theorem sound_of_object {o : Object} (h : Grounded l as w) (ho : w.object? key = some o) : l.Sound := by
  obtain ⟨a, ha, hk, -⟩ := h.stored.objects key o ho
  exact Location.sound_of_key (h.plain a ha).space (h.plain a ha).id hk

/-- nothing stands in the way of a selection of segments whose cutoff can be compared with the times of uploads -/
theorem passable (h : Grounded l as w) (sound : l.Sound) (bucket : w.bucket.isSome) (plain : selection.Plain)
    (comparable : ∀ a ∈ as, selection.Compares a.modified) : selection.Passable l w := by
  refine ⟨fun _ => bucket, fun space hspace => ?_, fun k o ho _ => ?_⟩
  · cases selection with
    | inNamespace space' ns => exact List.mem_singleton.1 hspace ▸ ⟨_, Location.start_space sound plain⟩
    | inSpaces spaces =>
      obtain ⟨space', hspace', rfl⟩ := List.mem_map.1 hspace
      exact ⟨_, Location.start_space sound (plain space' hspace')⟩
    | before cutoff => exact List.mem_singleton.1 hspace ▸ ⟨_, Location.start_all sound⟩
  · obtain ⟨a, ha, hka, rfl⟩ := h.stored.objects k o ho
    refine ⟨Location.key_ne_empty (h.plain a ha).id hka, ?_⟩
    cases selection with
    | before cutoff =>
      intro time read
      obtain rfl := Option.some.inj ((Arrival.keptIn_object (h.clocks a ha)).modified.symm.trans read)
      have compared : a.modified.offset.isSome = cutoff.offset.isSome := comparable a ha
      rw [Time.Timestamp.isBefore?, if_pos compared]
      exact Option.some_ne_none _
    | _ => trivial

end Grounded

namespace InStep

/-! ## Changes of the stores -/

theorem then_same (h : InStep l orphan w) (same : SameStores w t) : InStep l orphan t where
  rows e he := by
    obtain ⟨k, o, hk, ho⟩ := h.rows e (same.files ▸ he)
    exact ⟨k, o, hk, (same.object? k).trans ho⟩
  objects k o ho := same.files ▸ h.objects k o ((same.object? k).symm.trans ho)

theorem mono {orphan' : String → Prop} (h : InStep l orphan w) (more : ∀ k, orphan k → orphan' k) : InStep l orphan' w :=
  ⟨h.rows, fun k o ho => (h.objects k o ho).imp_right (more k)⟩

theorem brought {failed : Prop} (h : InStep l orphan w) (brought : a.Brings l w t failed) (time : a.modified.InUtc) :
    InStep l (fun k => orphan k ∨ l.key a.space a.id = .ok k ∧ failed) t := by
  rcases brought with same | ⟨key, b, hkey, hb, ht, rows⟩
  · exact (h.then_same same).mono fun k => .inl
  have still : ∀ e ∈ w.files.rows, t.HasContent l e := by
    intro e he
    obtain ⟨k, o, hk, ho⟩ := h.rows e he
    by_cases same : k = key
    · exact ⟨k, a.object, hk, by rw [object?_put hb ht, if_pos same]⟩
    · exact ⟨k, o, hk, by rw [object?_put hb ht, if_neg same, ho]⟩
  rcases rows with ⟨hfiles, why⟩ | ⟨new, hnew, hrows⟩
  · refine ⟨fun e he => still e (hfiles ▸ he), fun k o ho => ?_⟩
    rw [object?_put hb ht] at ho
    split at ho
    case isTrue same => exact .inr (.inr ⟨same ▸ hkey, why.resolve_left time.date⟩)
    case isFalse => exact hfiles ▸ (h.objects k o ho).imp_right .inl
  · have own : l.key new.space new.id = .ok key := hnew.space ▸ hnew.id ▸ hkey
    refine ⟨fun e he => ?_, fun k o ho => ?_⟩
    · rw [hrows, List.mem_append, List.mem_singleton] at he
      rcases he with he | rfl
      · exact still e he
      · exact ⟨key, a.object, own, by rw [object?_put hb ht, if_pos rfl]⟩
    · rw [object?_put hb ht] at ho
      split at ho
      case isTrue same => exact .inl ⟨new, by simp [hrows], same ▸ own⟩
      case isFalse =>
        rcases h.objects k o ho with ⟨e, he, hk⟩ | orphaned
        · exact .inl ⟨e, hrows ▸ List.mem_append_left _ he, hk⟩
        · exact .inr (.inl orphaned)

theorem deleted (h : InStep l orphan w) (plain : ∀ e ∈ w.files.rows, IsSegment e.space ∧ IsSegment e.id)
    (hspace : IsSegment space) (hid : IsSegment id) (hkey : l.key space id = .ok key) (hb : w.bucket = some b)
    (ht : t.bucket = some (b.erase [key])) (hfiles : t.files = w.files.remove (.file space id)) : InStep l orphan t where
  rows e he := by
    obtain ⟨he, unasked⟩ := FileTable.mem_remove.1 (hfiles ▸ he)
    obtain ⟨k, o, hk, ho⟩ := h.rows e he
    refine ⟨k, o, hk, ?_⟩
    rw [object?_erase hb ht, if_neg, ho]
    intro same
    obtain ⟨rfl, rfl⟩ := Location.key_inj (plain e he).1 hspace (plain e he).2 hid hk (List.mem_singleton.1 same ▸ hkey)
    simp [FileQuery.holds] at unasked
  objects k o ho := by
    rw [object?_erase hb ht] at ho
    split at ho
    case isTrue => cases ho
    case isFalse other =>
      rcases h.objects k o ho with ⟨e, he, hk⟩ | orphaned
      · refine .inl ⟨e, hfiles ▸ FileTable.mem_remove.2 ⟨he, Bool.eq_false_iff.2 fun asked => ?_⟩, hk⟩
        have same : e.space = space ∧ e.id = id := by simpa [FileQuery.holds] using asked
        rw [same.1, same.2, hkey] at hk
        exact other (List.mem_singleton.2 (Except.ok.inj hk).symm)
      · exact .inr orphaned

/-- **Contents that are picked go with the rows that are asked for.** -/
theorem culled (h : InStep l orphan w) (grounded : Grounded l as w) (plain : selection.Plain)
    (comparable : ∀ a ∈ as, selection.Compares a.modified) (hfiles : t.files = w.files.remove (Files.queryOf selection))
    (left : ∀ k o, t.object? k = some o ↔ w.object? k = some o ∧ ¬selection.Picks l k o) : InStep l orphan t where
  rows e he := by
    obtain ⟨he, unasked⟩ := FileTable.mem_remove.1 (hfiles ▸ he)
    obtain ⟨k, o, hk, ho⟩ := h.rows e he
    obtain ⟨a, ha, plainly, hka, row, kept⟩ := grounded.shared he hk ho
    refine ⟨k, o, hk, (left k o).2 ⟨ho, fun picked => ?_⟩⟩
    rw [holds_of_picks plain plainly hka kept row picked] at unasked
    cases unasked
  objects k o ho := by
    obtain ⟨ho, unpicked⟩ := (left k o).1 ho
    rcases h.objects k o ho with ⟨e, he, hk⟩ | orphaned
    · obtain ⟨a, ha, plainly, hka, row, kept⟩ := grounded.shared he hk ho
      refine .inl ⟨e, hfiles ▸ FileTable.mem_remove.2 ⟨he, Bool.eq_false_iff.2 fun asked => ?_⟩, hk⟩
      exact unpicked (picks_of_holds plain plainly hka kept row (comparable a ha) asked)
    · exact .inr orphaned

/-! ## Operations that remove -/

theorem delete_ends (h : InStep site.location orphan w) (rows : ∀ e ∈ w.files.rows, IsSegment e.space ∧ IsSegment e.id)
    (calm : Calm w) (bucket : w.bucket.isSome) (hspace : IsSegment space) (hid : IsSegment id) :
    (Files.delete site space id).Ends serve (fun _ t _ => InStep site.location orphan t) w events := by
  cases hkey : site.location.key space id with
  | error failure =>
    refine (Files.delete_ends space id).mono fun r t more ht => ?_
    rcases ht with ⟨-, -, same⟩ | ⟨key, b, accepted, -⟩
    · exact h.then_same same
    · cases hkey.symm.trans accepted
  | ok key =>
    obtain ⟨b, hb⟩ := Option.isSome_iff_exists.1 bucket
    refine (Files.calm_delete calm hb hkey (Location.key_ne_empty hid hkey)).mono fun r t more ht => ?_
    obtain ⟨there, rfl, -, rfl, -⟩ := ht
    exact h.deleted rows hspace hid hkey hb rfl rfl

theorem deleteSelected_ends (h : InStep site.location orphan w) (grounded : Grounded site.location as w)
    (times : ∀ a ∈ as, a.modified.InUtc) (calm : Calm w) (hb : w.bucket = some b)
    (pages : b.objects.length < site.pageLimit) (plain : selection.Plain) (timely : selection.Timely) :
    (Files.deleteSelected site selection).Ends serve (fun _ t _ => InStep site.location orphan t) w events := by
  by_cases sound : site.location.Sound
  · have comparable : ∀ a ∈ as, selection.Compares a.modified := by
      intro a ha
      cases selection with
      | before cutoff => exact (times a ha).known.trans timely.known.symm
      | _ => trivial
    have passable := grounded.passable sound (hb ▸ rfl) plain comparable
    have answerable : Files.Answerable (Files.queryOf selection) := by
      cases selection with
      | before cutoff => exact timely.date
      | _ => trivial
    refine (Files.calm_deleteSelected calm hb pages passable answerable).mono fun r t more ht => ?_
    obtain ⟨n, rfl, hfiles, left⟩ := ht
    exact h.culled grounded plain comparable hfiles left
  · refine ((Files.only_deleteSelected selection).keeps (J := Shrinks w) (fun c t hc ht => ht.trans (serve_shrinks hc t))
      (.refl w)).mono fun r t more ht => ⟨fun e he => ?_, fun k o ho => ?_⟩
    · exact (sound (grounded.sound_of_row (ht.rows e he))).elim
    · exact (sound (grounded.sound_of_object (ht.objects k o ho))).elim

theorem sweep_ends (h : InStep site.location orphan w) (rows : ∀ e ∈ w.files.rows, IsSegment e.space ∧ IsSegment e.id)
    (calm : Calm w) (hb : w.bucket = some b) (pages : b.objects.length < site.pageLimit) :
    (Files.sweep site).Ends serve (fun _ t _ => InStep site.location orphan t) w events := by
  have placed : ∀ e ∈ w.files.rows, ∃ start key o, site.location.start (some e.space) = .ok start ∧
      site.location.key e.space e.id = .ok key ∧ w.object? key = some o ∧ Bucket.startsWith start key = true := by
    intro e he
    obtain ⟨hspace, hid⟩ := rows e he
    obtain ⟨k, o, hk, ho⟩ := h.rows e he
    refine ⟨_, k, o, Location.start_space (Location.sound_of_key hspace hid hk) hspace, hk, ho, ?_⟩
    rw [Location.key_eq hspace hid hk]
    exact (Location.startsWith_key hspace hspace).2 rfl
  have starts : ∀ e ∈ w.files.rows, ∃ start, site.location.start (some e.space) = .ok start := by
    intro e he
    obtain ⟨start, _, _, hstart, -⟩ := placed e he
    exact ⟨start, hstart⟩
  have keys : ∀ e ∈ w.files.rows, ∃ key, site.location.key e.space e.id = .ok key := by
    intro e he
    obtain ⟨_, key, _, -, hkey, -⟩ := placed e he
    exact ⟨key, hkey⟩
  refine ((Files.calm_sweep calm hb pages starts keys).and Files.sweep_sweeps).mono fun r t more ht => ?_
  obtain ⟨⟨n, rfl, -⟩, sweeps⟩ := ht
  refine h.then_same (sweeps.same fun e he => ?_).2
  obtain ⟨start, key, o, hstart, hkey, ho, below⟩ := placed e he
  exact ⟨key, o, hkey, ho, some e.space, List.mem_map_of_mem he, start, hstart, below⟩

theorem cleanup_ends (h : InStep site.location orphan w) (rows : ∀ e ∈ w.files.rows, IsSegment e.space ∧ IsSegment e.id)
    (calm : Calm w) (bucket : w.bucket.isSome) (size : Option Int) (cutoff : Time.Timestamp) :
    (Retention.cleanup site size cutoff).Ends serve (fun _ t _ => InStep site.location orphan t) w events := by
  let J (t : World) (_ : List Event) : Prop :=
    InStep site.location orphan t ∧ Calm t ∧ t.bucket.isSome ∧ Shrinks w t
  have loop : (Retention.cleanup site size cutoff).Ends serve (fun _ t more => J t more) w events := by
    refine Retention.cleanup_ends (fun e => (IsSegment e.space ∧ IsSegment e.id) ∧
      ∃ key, site.location.key e.space e.id = .ok key) (fun _ _ _ ht => ht) ?reads ?rows ?delete size
      ⟨h, calm, bucket, .refl w⟩
    case reads =>
      intro c t more hc ⟨ht, calm, bucket, less⟩
      have same := serve_reads hc t
      exact ⟨ht.then_same same, serve_calm c calm, (serve_bucket c t).trans bucket, less.trans same.shrinks⟩
    case rows =>
      intro t more ht e he
      obtain ⟨key, o, hkey, -⟩ := ht.1.rows e he
      exact ⟨rows e (ht.2.2.2.rows e he), key, hkey⟩
    case delete =>
      rintro n hn e t more ⟨⟨hspace, hid⟩, key, hkey⟩ ⟨ht, calm, bucket, less⟩
      have plain : ∀ e ∈ t.files.rows, IsSegment e.space ∧ IsSegment e.id := fun e he => rows e (less.rows e he)
      obtain ⟨b, hb⟩ := Option.isSome_iff_exists.1 bucket
      refine (Retention.calm_deleteSafely hn calm hb hkey (Location.key_ne_empty hid hkey)).mono fun r u more hu => ?_
      obtain ⟨calm, hu, hfiles⟩ := hu
      refine ⟨ht.deleted plain hspace hid hkey hb hu hfiles, calm, by rw [hu]; rfl, ?_⟩
      exact less.trans (shrinks_of_erase hb hu fun e he => (FileTable.mem_remove.1 (hfiles ▸ he)).1)
  exact loop.mono fun _ t more ht => ht.1

/-- **Operations that remove keep rows and contents in step** where no fault is scheduled and no row is locked. -/
theorem removal_ends (h : InStep site.location orphan w) (grounded : Grounded site.location as w)
    (times : ∀ a ∈ as, a.modified.InUtc) (calm : Calm w) (hb : w.bucket = some b)
    (pages : b.objects.length < site.pageLimit) {o : Operation} (plain : o.Plain) (timely : o.Timely)
    (removes : o.removes = true) :
    (o.program site).Ends serve (fun _ t _ => InStep site.location orphan t) w events := by
  have rows : ∀ e ∈ w.files.rows, IsSegment e.space ∧ IsSegment e.id := fun e he => grounded.row_plain he
  have bucket : w.bucket.isSome := by rw [hb]; rfl
  have culls : ∀ selection : Selection, selection.Plain → selection.Timely →
      (Files.deleteSelected site selection).Ends serve (fun _ t _ => InStep site.location orphan t) w events :=
    fun _ hplain htimely => h.deleteSelected_ends grounded times calm hb pages hplain htimely
  cases o with
  | delete space id => exact Prog.ends_void.2 (h.delete_ends rows calm bucket plain.1 plain.2)
  | deleteNamespace space ns => exact Prog.ends_void.2 (culls (.inNamespace space ns) plain trivial)
  | deleteSpaces spaces => exact Prog.ends_void.2 (culls (.inSpaces spaces) plain trivial)
  | deleteBefore cutoff =>
    refine Prog.ends_void.2 ?_
    exact (culls (.before cutoff) trivial timely).bind (fun n t more ht => ht) (fun e t more ht => ht)
  | sweep => exact Prog.ends_void.2 (h.sweep_ends rows calm hb pages)
  | cleanup size cutoff => exact Prog.ends_void.2 (h.cleanup_ends rows calm bucket size cutoff)
  | _ => cases removes

end InStep

/-! ## Steps -/

/-- no fault and no lock makes a difference to a call of a step -/
def Step.Spared (l : Location) (s : Step) (w : World) : Prop :=
  (s.operation.program (s.site l w)).Spared (s.start w)

theorem Step.spared_of_calm (calm : Calm s.around) : s.Spared l w :=
  Prog.spared_of_calm _ ⟨calm.strikes, calm.refusals, calm.locked⟩

/-- pages enough are provided for every listing -/
theorem Step.pages_enough (s : Step) (hb : w.bucket = some b) : b.objects.length < (s.site l w).pageLimit := by
  show _ < (w.bucket.elim 0 (·.objects.length)) + 1
  rw [hb]
  exact Nat.lt_succ_self _

namespace InStep

/-- an upload whose row could not be added leaves an orphan -/
theorem upload_step (h : InStep l orphan w) (times : ∀ a, s.arrival? = some a → a.modified.InUtc)
    (upload : s.operation.isUpload = true) :
    InStep l (fun k => orphan k ∨ ∃ a, s.arrival? = some a ∧ l.key a.space a.id = .ok k ∧ s.InsertFails l w)
      (s.run l w).state := by
  cases ha : s.arrival? with
  | none => exact (h.then_same (s.same_of_upload upload ha)).mono fun _ => .inl
  | some a =>
    refine (h.brought (s.brings ha) (times a ha)).mono fun k => ?_
    exact Or.imp_right fun brought => ⟨a, rfl, brought⟩

theorem removal_step (h : InStep l orphan w) (grounded : Grounded l as w) (bucket : w.bucket.isSome)
    (times : ∀ a ∈ as, a.modified.InUtc) (plain : s.operation.Plain) (timely : s.operation.Timely)
    (removes : s.operation.removes = true) (spared : s.Spared l w) : InStep l orphan (s.run l w).state := by
  have aside : SameStores w (s.start w).calmed := (s.start_stores w).trans (calmed_stores _)
  obtain ⟨b, hb⟩ := Option.isSome_iff_exists.1 bucket
  have calm : (s.operation.program (s.site l w)).Ends serve (fun _ t _ => InStep l orphan t) (s.start w).calmed [] :=
    (h.then_same aside).removal_ends (grounded.then_same aside) times (calm_calmed _) (aside.bucket.trans hb)
      (s.pages_enough hb) plain timely removes
  refine Step.run_of_ends (l := l) (w := w) (s := s) (Q := fun _ t _ => InStep l orphan t) ?_
  exact (spared.ends_calmed.1 calm).mono fun r t more ht => ht.then_same ⟨rfl, rfl⟩

/-- **A step keeps rows and contents in step**, but for the orphan that an upload may leave. -/
theorem step (h : InStep l orphan w) (grounded : Grounded l as w) (bucket : w.bucket.isSome)
    (times : ∀ a ∈ as ++ s.arrival?.toList, a.modified.InUtc) (plain : s.operation.Plain) (timely : s.operation.Timely)
    (spared : s.operation.removes = true → s.Spared l w) :
    InStep l (fun k => orphan k ∨ ∃ a, s.arrival? = some a ∧ l.key a.space a.id = .ok k ∧ s.InsertFails l w)
      (s.run l w).state := by
  cases upload : s.operation.isUpload with
  | true => exact h.upload_step (fun a ha => times a (by simp [ha])) upload
  | false =>
    refine InStep.mono ?_ fun _ => .inl
    cases removes : s.operation.removes with
    | true =>
      have before : ∀ a ∈ as, a.modified.InUtc := fun a ha => times a (List.mem_append_left _ ha)
      exact h.removal_step grounded bucket before plain timely removes (spared removes)
    | false => exact h.then_same (Step.same_of_reads (Operation.only_reads plain upload removes))

end InStep

/-! ## Histories -/

/-- a plain history whose uploads and cutoffs have times in UTC, and in which no fault and no lock makes a difference to
an operation that removes -/
structure OrderlyHistory (l : Location) (steps : List Step) : Prop extends PlainHistory steps where
  times : ∀ a ∈ arrivals steps, a.modified.InUtc
  cutoffs : ∀ s ∈ steps, s.operation.Timely
  removals : ∀ before s later, steps = before ++ s :: later → s.operation.removes = true →
    s.Spared l (after l .fresh before)

theorem OrderlyHistory.of_append {more : List Step} (h : OrderlyHistory l (steps ++ more)) : OrderlyHistory l steps where
  toPlainHistory := h.toPlainHistory.of_append
  times a ha := h.times a (arrivals_append ▸ List.mem_append_left _ ha)
  cutoffs s hs := h.cutoffs s (List.mem_append_left _ hs)
  removals before s later split := h.removals before s (later ++ more) (by simp [split])

/-- a key is that of an upload of a history whose row could not be added -/
def Orphaned (l : Location) (steps : List Step) (k : String) : Prop :=
  ∃ before s later a, steps = before ++ s :: later ∧ s.arrival? = some a ∧ l.key a.space a.id = .ok k ∧
    s.InsertFails l (after l .fresh before)

theorem OrderlyHistory.inStep (h : OrderlyHistory l steps) : InStep l (Orphaned l steps) (after l .fresh steps) := by
  induction steps using List.reverseRecOn with
  | nil => exact ⟨fun e he => by simp [after, fresh, FileTable.empty] at he, fun k o ho => by simp [object?, fresh] at ho⟩
  | append_singleton steps s ih =>
    rw [after_snoc]
    have times := h.times
    rw [arrivals_append, arrivals_cons, arrivals_nil, List.append_nil] at times
    refine ((ih h.of_append).step h.of_append.toPlainHistory.grounded (after_bucket l steps) times
      (h.operations s (by simp)) (h.cutoffs s (by simp)) (h.removals steps s [] rfl)).mono fun k hk => ?_
    rcases hk with ⟨before, s', later, a, split, rest⟩ | ⟨a, made, hk, failed⟩
    · exact ⟨before, s', later ++ [s], a, by simp [split], rest⟩
    · exact ⟨steps, s, [], a, rfl, made, hk, failed⟩

/-- **Rows and contents stay in step.** After any history in which nothing strikes an operation that removes, each row
has its content, and each content is at the key of a row, or at that of an upload whose row could not be added. Where no
row failed to be added, the keys of contents are those of the rows. -/
theorem rows_and_contents_in_step (l : Location) (steps : List Step) (orderly : OrderlyHistory l steps) :
    (∀ e ∈ (after l .fresh steps).files.rows, (after l .fresh steps).HasContent l e) ∧
    (∀ k o, (after l .fresh steps).object? k = some o →
      (∃ e ∈ (after l .fresh steps).files.rows, l.key e.space e.id = .ok k) ∨ Orphaned l steps k) ∧
    ((∀ before s later, steps = before ++ s :: later → ¬s.InsertFails l (after l .fresh before)) →
      ∀ k, (∃ o, (after l .fresh steps).object? k = some o) ↔
        ∃ e ∈ (after l .fresh steps).files.rows, l.key e.space e.id = .ok k) := by
  have inStep := orderly.inStep
  refine ⟨inStep.rows, inStep.objects, fun added k => ?_⟩
  constructor
  · rintro ⟨o, ho⟩
    rcases inStep.objects k o ho with kept | ⟨before, s, later, _, split, -, -, failed⟩
    · exact kept
    · exact (added before s later split failed).elim
  · rintro ⟨e, he, hk⟩
    obtain ⟨k', o, hk', ho⟩ := inStep.rows e he
    cases hk.symm.trans hk'
    exact ⟨o, ho⟩

/-- an upload whose row is not added, others, a deletion of one of their spaces, and a sweep -/
def orphanedContent : List Step :=
  [(Step.upload "s" "1").struck .insertFiles .database, .upload "s" "2", .upload "t" "3", .fresh (.deleteSpaces ["t"]),
    .fresh .sweep]

theorem rows_and_contents_in_step_orphanedContent :
    OrderlyHistory .top orphanedContent ∧ Orphaned .top orphanedContent "s/1" := by
  have times : ∀ a ∈ arrivals orphanedContent, a.modified.offset.isSome ∧ a.modified.toUtc? ≠ none := by decide +kernel
  have calm : ∀ s ∈ orphanedContent, s.operation.removes = true →
      s.around.strikes = [] ∧ s.around.refusals = [] ∧ s.around.locked = [] := by decide +kernel
  have orderly : OrderlyHistory .top orphanedContent := by
    refine ⟨⟨⟨by decide +kernel, by decide +kernel⟩, by decide +kernel, by decide +kernel⟩,
      fun a ha => ⟨(times a ha).1, (times a ha).2⟩, ?_, fun before s later split removes => ?_⟩
    · simp [orphanedContent, Step.upload, Step.struck, Step.fresh, Operation.Timely]
    · obtain ⟨strikes, refusals, locked⟩ := calm s (by simp [split]) removes
      exact Step.spared_of_calm ⟨strikes, refusals, locked⟩
  obtain ⟨o, ho⟩ : ∃ o, (after .top .fresh orphanedContent).object? "s/1" = some o :=
    Option.isSome_iff_exists.1 (by decide +kernel)
  refine ⟨orderly, ((rows_and_contents_in_step .top orphanedContent orderly).2.1 _ o ho).resolve_left ?_⟩
  decide +kernel

end Depot
