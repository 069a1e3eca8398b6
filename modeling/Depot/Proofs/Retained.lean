/-
Rows that a deletion by time leaves.

The contents are compared with the cutoff as they are listed, before any row is: by instants, whatever clock the cutoff
is read on. The rows are compared in UTC, and a cutoff without a date in UTC fails that statement before it is made. So
such a deletion leaves all rows (`calm_deleteBefore`). A cutoff before the calendar is later than no content; one past
its end is later than every content, and takes them all.

After any history in which nothing strikes an operation that removes, the rows that are left have their contents just
if the cutoff is not past the end of the calendar, or there was no row (`left_rows_keep_contents_iff`).
-/
import Depot.Proofs.InStep

namespace Depot

open World Key

variable {l : Location} {w t : World} {s : Step} {as : List Arrival} {a : Arrival} {e : Entry} {b : Bucket} {k : String}
  {site : Site} {events : List Event} {cutoff : Time.Timestamp} {selection : Selection}

/-! ## Times in UTC -/

namespace Time.Timestamp

theorem toUtc?_eq_none_iff {time : Timestamp} : time.toUtc? = none ↔ time.instant < 0 ∨ limit ≤ time.instant := by
  unfold toUtc? ofInstant?
  split
  case isTrue within =>
    constructor
    · intro impossible
      cases impossible
    · intro out
      omega
  case isFalse out =>
    constructor
    · intro _
      omega
    · intro _
      rfl

/-- a time that has a date in UTC is in the calendar -/
theorem instant_bounds {time utc : Timestamp} (h : time.toUtc? = some utc) : 0 ≤ utc.instant ∧ utc.instant < limit := by
  have within : ¬(time.instant < 0 ∨ limit ≤ time.instant) := by
    rw [← toUtc?_eq_none_iff, h]
    exact Option.some_ne_none utc
  rw [instant_toUtc? h]
  omega

end Time.Timestamp

/-! ## One deletion -/

namespace Files

/-- the rows that a deletion by time leaves: all, if its cutoff has no date in UTC -/
def leftBefore (cutoff : Time.Timestamp) (rows : List Entry) : List Entry :=
  if cutoff.toUtc? = none then rows else rows.filter fun e => decide (cutoff.instant ≤ e.modified.instant)

theorem mem_leftBefore {rows : List Entry} : e ∈ leftBefore cutoff rows ↔
    e ∈ rows ∧ (cutoff.toUtc? = none ∨ cutoff.instant ≤ e.modified.instant) := by
  unfold leftBefore
  split
  case isTrue undated => simp [undated]
  case isFalse dated => simp [dated]

theorem remove_before_undated (h : cutoff.toUtc? = none) : remove (.before cutoff) = .fail (.fault .outOfCalendar) := by
  rw [remove, prepare, inUtc, h]
  rfl

/-- **A deletion by time** removes the contents before the cutoff, and the rows too if the cutoff has a date in UTC. -/
theorem calm_deleteBefore (calm : Calm w) (hb : w.bucket = some b) (pages : b.objects.length < site.pageLimit)
    (passable : (Selection.before cutoff).Passable site.location w) :
    (deleteBefore site cutoff).Ends serve (fun _ t _ => t.files.rows = leftBefore cutoff w.files.rows ∧
      ∀ k o, t.object? k = some o ↔ w.object? k = some o ∧ ¬(Selection.before cutoff).Picks site.location k o) w
      events := by
  have selected : (deleteSelected site (.before cutoff)).Ends serve (fun _ t _ =>
      t.files.rows = leftBefore cutoff w.files.rows ∧
        ∀ k o, t.object? k = some o ↔ w.object? k = some o ∧ ¬(Selection.before cutoff).Picks site.location k o) w
      events := by
    by_cases dated : cutoff.toUtc? = none
    · unfold deleteSelected
      refine (calm_contents calm hb pages passable).bind_ok fun _ t more ht => ?_
      obtain ⟨-, files, left⟩ := ht
      rw [leftBefore, if_pos dated, queryOf, remove_before_undated dated]
      exact ⟨congrArg FileTable.rows files, left⟩
    · refine (calm_deleteSelected calm hb pages passable dated).mono fun r t more ht => ?_
      obtain ⟨n, -, files, left⟩ := ht
      refine ⟨?_, left⟩
      rw [files, leftBefore, if_neg dated]
      apply List.filter_congr
      intro e _
      simp only [queryOf, FileQuery.holds, ← decide_not, not_lt]
  unfold deleteBefore
  exact selected.bind (fun n t more ht => ht) (fun failure t more ht => ht)

end Files

/-! ## Rows and their contents -/

/-- a content that stands at the key of a row is picked just if the row is before the cutoff -/
theorem Grounded.picks_before_iff (h : Grounded l as w) (times : ∀ a ∈ as, a.modified.InUtc) (aware : cutoff.offset.isSome)
    (he : e ∈ w.files.rows) {o : Object} (hk : l.key e.space e.id = .ok k) (ho : w.object? k = some o) :
    (Selection.before cutoff).Picks l k o ↔ e.modified.instant < cutoff.instant := by
  obtain ⟨a, ha, plainly, hka, row, kept⟩ := h.shared he hk ho
  have noSpaces : (Selection.before cutoff).Plain := trivial
  constructor
  · intro picked
    have held := holds_of_picks noSpaces plainly hka kept row picked
    simpa [Files.queryOf, FileQuery.holds] using held
  · intro before
    have comparable : a.modified.offset.isSome = cutoff.offset.isSome := (times a ha).known.trans aware.symm
    apply picks_of_holds noSpaces plainly hka kept row comparable
    simpa [Files.queryOf, FileQuery.holds] using before

theorem Grounded.row_time (h : Grounded l as w) (he : e ∈ w.files.rows) :
    0 ≤ e.modified.instant ∧ e.modified.instant < Time.limit := by
  obtain ⟨a, -, row, -⟩ := h.stored.rows e he
  exact Time.Timestamp.instant_bounds row.modified

/-- a row that is left is before the cutoff just if the cutoff is past the calendar -/
theorem before_of_left (time : 0 ≤ e.modified.instant ∧ e.modified.instant < Time.limit)
    (left : cutoff.toUtc? = none ∨ cutoff.instant ≤ e.modified.instant) :
    e.modified.instant < cutoff.instant ↔ Time.limit ≤ cutoff.instant := by
  rw [Time.Timestamp.toUtc?_eq_none_iff] at left
  omega

/-- the stores after a deletion by time: of the rows that are left, those had their contents that had them before, and
none if the cutoff is past the calendar -/
structure LeftBefore (l : Location) (cutoff : Time.Timestamp) (w t : World) : Prop where
  rows : t.files.rows = Files.leftBefore cutoff w.files.rows
  contents : ∀ e ∈ t.files.rows, t.HasContent l e ↔ w.HasContent l e ∧ cutoff.instant < Time.limit

namespace LeftBefore

theorem after_same (h : LeftBefore l cutoff w t) {v : World} (same : SameStores v w) : LeftBefore l cutoff v t := by
  refine ⟨same.files ▸ h.rows, fun e he => ?_⟩
  rw [h.contents e he, same.hasContent]

theorem then_same (h : LeftBefore l cutoff w t) {u : World} (same : SameStores t u) : LeftBefore l cutoff w u := by
  refine ⟨same.files ▸ h.rows, fun e he => ?_⟩
  rw [← h.contents e (same.files ▸ he), same.hasContent]

theorem of_left (grounded : Grounded l as w) (times : ∀ a ∈ as, a.modified.InUtc) (aware : cutoff.offset.isSome)
    (rows : t.files.rows = Files.leftBefore cutoff w.files.rows)
    (left : ∀ k o, t.object? k = some o ↔ w.object? k = some o ∧ ¬(Selection.before cutoff).Picks l k o) :
    LeftBefore l cutoff w t := by
  refine ⟨rows, ?_⟩
  intro e he
  obtain ⟨old, later⟩ := Files.mem_leftBefore.1 (rows ▸ he)
  have past : ∀ k o, l.key e.space e.id = .ok k → w.object? k = some o →
      ((Selection.before cutoff).Picks l k o ↔ Time.limit ≤ cutoff.instant) := by
    intro k o hk ho
    rw [grounded.picks_before_iff times aware old hk ho]
    exact before_of_left (grounded.row_time old) later
  constructor
  · intro ⟨k, o, hk, ho⟩
    obtain ⟨there, unpicked⟩ := (left k o).1 ho
    rw [past k o hk there] at unpicked
    exact ⟨⟨k, o, hk, there⟩, by omega⟩
  · intro ⟨⟨k, o, hk, ho⟩, early⟩
    refine ⟨k, o, hk, (left k o).2 ⟨ho, ?_⟩⟩
    rw [past k o hk ho]
    omega

/-- all rows that are left have their contents, where all had them, unless the cutoff is past the calendar -/
theorem all_iff (h : LeftBefore l cutoff w t) (all : ∀ e ∈ w.files.rows, w.HasContent l e) :
    (∀ e ∈ t.files.rows, t.HasContent l e) ↔ cutoff.instant < Time.limit ∨ w.files.rows = [] := by
  constructor
  · intro kept
    by_contra out
    obtain ⟨late, nonempty⟩ := not_or.1 out
    obtain ⟨e, he⟩ := List.exists_mem_of_ne_nil _ nonempty
    have undated : cutoff.toUtc? = none := Time.Timestamp.toUtc?_eq_none_iff.2 (.inr (not_lt.1 late))
    have left : e ∈ t.files.rows := h.rows ▸ Files.mem_leftBefore.2 ⟨he, .inl undated⟩
    exact late ((h.contents e left).1 (kept e left)).2
  · intro fine e he
    have old := (Files.mem_leftBefore.1 (h.rows ▸ he)).1
    rcases fine with early | empty
    · exact (h.contents e he).2 ⟨all e old, early⟩
    · rw [empty] at old
      exact (List.not_mem_nil old).elim

end LeftBefore

/-! ## Histories -/

/-- **A step that deletes by time**, and that nothing strikes. -/
theorem Grounded.left_before (h : Grounded l as w) (bucket : w.bucket.isSome) (times : ∀ a ∈ as, a.modified.InUtc)
    (aware : cutoff.offset.isSome) (deletes : s.operation = .deleteBefore cutoff) (spared : s.Spared l w) :
    LeftBefore l cutoff w (s.run l w).state := by
  have aside : SameStores w (s.start w).calmed := (s.start_stores w).trans (calmed_stores _)
  obtain ⟨b, hb⟩ := Option.isSome_iff_exists.1 bucket
  have start := h.then_same aside
  have comparable : ∀ a ∈ as, (Selection.before cutoff).Compares a.modified :=
    fun a ha => (times a ha).known.trans aware.symm
  by_cases sound : l.Sound
  · have passable : (Selection.before cutoff).Passable l (s.start w).calmed :=
      start.passable sound (aside.bucket ▸ bucket) trivial comparable
    have calm : (s.operation.program (s.site l w)).Ends serve (fun _ t _ => LeftBefore l cutoff w t)
        (s.start w).calmed [] := by
      rw [deletes]
      apply Prog.ends_void.2
      refine (Files.calm_deleteBefore (calm_calmed _) (aside.bucket.trans hb) (s.pages_enough hb) passable).mono ?_
      intro r t more ⟨rows, left⟩
      exact (LeftBefore.of_left start times aware rows left).after_same aside
    refine Step.run_of_ends (l := l) (w := w) (s := s) (Q := fun _ t _ => LeftBefore l cutoff w t) ?_
    exact (spared.ends_calmed.1 calm).mono fun r t more ht => ht.then_same ⟨rfl, rfl⟩
  · have empty : w.files.rows = [] := List.eq_nil_iff_forall_not_mem.2 fun e he => sound (h.sound_of_row he)
    have gone : (s.run l w).state.files.rows = [] := by
      have less : Shrinks w (s.run l w).state := s.shrinks (by simp [Step.arrival?, deletes])
      exact List.eq_nil_iff_forall_not_mem.2 fun e he => List.not_mem_nil (empty ▸ less.rows e he)
    refine ⟨?_, ?_⟩
    · rw [gone, empty, Files.leftBefore]
      split <;> rfl
    · intro e he
      rw [gone] at he
      exact (List.not_mem_nil he).elim

/-- **A deletion by time leaves a row without its content just if the cutoff is past the calendar.** After a plain
history whose uploads have times in UTC, and a deletion by a cutoff whose distance from UTC is known, a row that is left
has its content just if it had it before and the instant of the cutoff is before the end of the calendar. If nothing
struck the operations of the history that remove, all rows that are left have theirs just if the cutoff is not past
the calendar, or there was no row. -/
theorem left_rows_keep_contents_iff (l : Location) (steps : List Step) (plain : PlainHistory steps)
    (times : ∀ a ∈ arrivals steps, a.modified.InUtc) (s : Step) (cutoff : Time.Timestamp)
    (deletes : s.operation = .deleteBefore cutoff) (aware : cutoff.offset.isSome)
    (spared : s.Spared l (after l .fresh steps)) :
    (∀ e ∈ (after l .fresh (steps ++ [s])).files.rows, (after l .fresh (steps ++ [s])).HasContent l e ↔
      (after l .fresh steps).HasContent l e ∧ cutoff.instant < Time.limit) ∧
    (OrderlyHistory l steps →
      ((∀ e ∈ (after l .fresh (steps ++ [s])).files.rows, (after l .fresh (steps ++ [s])).HasContent l e) ↔
        cutoff.instant < Time.limit ∨ (after l .fresh steps).files.rows = [])) := by
  rw [after_snoc]
  have left := plain.grounded.left_before (after_bucket l steps) times aware deletes spared
  refine ⟨left.contents, ?_⟩
  intro orderly
  exact left.all_iff orderly.inStep.rows

/-- the last second of the calendar, on a clock that is an hour behind UTC -/
def pastCalendar : Time.Timestamp :=
  (Time.Timestamp.of? ⟨9999, 12, 31⟩ (Time.day - Time.second) (some (-Time.hour))).getD default

/-- a deletion of all that was uploaded before a time that has no date in UTC -/
def deleteBeforeEnd : Step :=
  .fresh (.deleteBefore pastCalendar)

theorem left_rows_keep_contents_iff_pastCalendar :
    pastCalendar.offset.isSome ∧ OrderlyHistory .top [.upload "s" "1"] ∧
    deleteBeforeEnd.Spared .top (after .top .fresh [.upload "s" "1"]) ∧
    ∃ e ∈ (after .top .fresh [.upload "s" "1", deleteBeforeEnd]).files.rows,
      ¬(after .top .fresh [.upload "s" "1", deleteBeforeEnd]).HasContent .top e := by
  have aware : pastCalendar.offset.isSome := by decide +kernel
  have late : ¬pastCalendar.instant < Time.limit := by decide +kernel
  have times : ∀ a ∈ arrivals [Step.upload "s" "1"], a.modified.offset.isSome ∧ a.modified.toUtc? ≠ none := by
    decide +kernel
  have orderly : OrderlyHistory .top [.upload "s" "1"] := by
    refine ⟨⟨⟨by decide +kernel, by decide +kernel⟩, by decide +kernel, by decide +kernel⟩,
      fun a ha => ⟨(times a ha).1, (times a ha).2⟩, by simp [Step.upload, Operation.Timely], ?_⟩
    intro before s later split removes
    have upload : s = .upload "s" "1" := by
      have here : s ∈ [Step.upload "s" "1"] := split ▸ List.mem_append_right _ List.mem_cons_self
      exact List.mem_singleton.1 here
    rw [upload] at removes
    cases removes
  have spared : deleteBeforeEnd.Spared .top (after .top .fresh [.upload "s" "1"]) :=
    Step.spared_of_calm ⟨rfl, rfl, rfl⟩
  obtain ⟨e, he⟩ : ∃ e, e ∈ (after .top .fresh [.upload "s" "1", deleteBeforeEnd]).files.rows :=
    List.exists_mem_of_length_pos (by decide +kernel)
  have kept := (left_rows_keep_contents_iff .top [.upload "s" "1"] orderly.toPlainHistory orderly.times deleteBeforeEnd
    pastCalendar rfl aware spared).1 e he
  refine ⟨aware, orderly, spared, e, he, ?_⟩
  intro there
  exact late (kept.1 there).2

end Depot
