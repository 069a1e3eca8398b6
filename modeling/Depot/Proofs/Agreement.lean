/-
Two ways to delete files by their age.

A bulk deletion goes by the times in the texts of the objects: it lists the whole location, deletes what is older than
the cutoff many keys at a time, and then the rows by one statement. The cleanup goes by the times of the rows: it fetches
the expired ones page by page, and deletes each with its content. Where each row's key holds an object with the time of
the row, and no other object is in the location (`Paired`), an object is picked just if its row has expired
(`Paired.picks_iff`). So both leave the same stores and give the same number (`deletions_by_age_agree`).
-/
import Depot.Proofs.Atomicity
import Depot.Proofs.Cleanups
import Depot.Proofs.Prefixes

namespace Depot

open World Key

variable {l : Location} {w : World} {site : Site} {cutoff : Time.Timestamp} {b : Bucket} {k : String} {o : Object}
  {events : List Event}

/-! ## Rows with their contents -/

/-- a content of a row: the object at its key has the row's time, on a clock whose distance from UTC is known -/
def World.Keeps (w : World) (l : Location) (e : Entry) (k : String) : Prop :=
  ∃ o time, l.key e.space e.id = .ok k ∧ w.object? k = some o ∧ Content.timeIn o.metadata = some time ∧
    time.offset.isSome ∧ time.instant = e.modified.instant

/-- rows and contents belong together: each row has a content with its time, and no other object is in the location; a
location without a row can be looked into all the same -/
structure Paired (l : Location) (w : World) : Prop where
  rows : ∀ e ∈ w.files.rows, IsSegment e.id ∧ ∃ k, w.Keeps l e k
  objects : ∀ start k o, l.start none = .ok start → w.object? k = some o → Bucket.startsWith start k = true →
    ∃ e ∈ w.files.rows, l.key e.space e.id = .ok k
  opens : w.files.rows = [] → ∃ start, l.start none = .ok start

namespace Paired

theorem then_same {t : World} (h : Paired l w) (same : SameStores w t) : Paired l t := by
  refine ⟨?_, ?_, ?_⟩
  · intro e he
    obtain ⟨segment, k, o, time, hk, ho, kept⟩ := h.rows e (same.files ▸ he)
    exact ⟨segment, k, o, time, hk, (same.object? k).trans ho, kept⟩
  · intro start k o hstart ho starts
    rw [same.files]
    exact h.objects start k o hstart ((same.object? k).symm.trans ho) starts
  · rw [same.files]
    exact h.opens

theorem start (h : Paired l w) : ∃ start, l.start none = .ok start := by
  cases rows : w.files.rows with
  | nil => exact h.opens rows
  | cons e rest =>
    obtain ⟨segment, k, o, time, hk, -⟩ := h.rows e (rows ▸ List.mem_cons_self)
    exact ⟨l.folder, Location.start_all (Location.sound_of_id segment hk).1⟩

theorem row (h : Paired l w) (ho : w.object? k = some o) (reached : (Selection.before cutoff).Reaches l k) :
    ∃ e ∈ w.files.rows, l.key e.space e.id = .ok k ∧ k ≠ "" ∧ ∃ time, Content.timeIn o.metadata = some time ∧
      time.offset.isSome ∧ time.instant = e.modified.instant := by
  obtain ⟨space, whole, start, hstart, starts⟩ := reached
  obtain rfl : space = none := List.mem_singleton.1 whole
  obtain ⟨e, he, hk⟩ := h.objects start k o hstart ho starts
  obtain ⟨segment, k', o', time, hk', ho', kept⟩ := h.rows e he
  obtain rfl : k' = k := Except.ok.inj (hk'.symm.trans hk)
  obtain rfl : o' = o := Option.some.inj (ho'.symm.trans ho)
  exact ⟨e, he, hk, Location.key_ne_empty segment hk, time, kept⟩

/-- **An object is picked just if it is the content of a row that has expired.** -/
theorem picks_iff (h : Paired l w) (aware : cutoff.offset.isSome) (ho : w.object? k = some o) :
    (Selection.before cutoff).Picks l k o ↔
      ∃ e ∈ w.files.rows, e.modified.instant < cutoff.instant ∧ l.key e.space e.id = .ok k := by
  have compared : ∀ time : Time.Timestamp, time.offset.isSome →
      time.isBefore? cutoff = some (decide (time.instant < cutoff.instant)) :=
    fun time known => if_pos (known.trans aware.symm)
  constructor
  · intro ⟨reached, time, read, old⟩
    obtain ⟨e, he, hk, -, time', read', known, same⟩ := h.row ho reached
    obtain rfl : time' = time := Option.some.inj (read'.symm.trans read)
    rw [compared time' known, Option.some.injEq, decide_eq_true_eq, same] at old
    exact ⟨e, he, old, hk⟩
  · intro ⟨e, he, old, hk⟩
    obtain ⟨segment, k', o', time, hk', ho', read, known, same⟩ := h.rows e he
    obtain rfl : k' = k := Except.ok.inj (hk'.symm.trans hk)
    obtain rfl : o' = o := Option.some.inj (ho'.symm.trans ho)
    obtain ⟨sound, starts⟩ := Location.sound_of_id segment hk
    refine ⟨⟨none, List.mem_singleton.2 rfl, l.folder, Location.start_all sound, starts⟩, time, read, ?_⟩
    rw [compared time known, same, decide_eq_true old]

theorem passable (h : Paired l w) (aware : cutoff.offset.isSome) (bucket : w.bucket.isSome) :
    (Selection.before cutoff).Passable l w := by
  refine ⟨fun _ => bucket, ?_, ?_⟩
  · intro space whole
    obtain rfl : space = none := List.mem_singleton.1 whole
    exact h.start
  · intro k o ho reached
    obtain ⟨e, he, -, named, time, read, known, -⟩ := h.row ho reached
    refine ⟨named, ?_⟩
    intro time' read'
    obtain rfl : time' = time := Option.some.inj (read'.symm.trans read)
    rw [Time.Timestamp.isBefore?, if_pos (known.trans aware.symm)]
    exact Option.some_ne_none _

end Paired

/-! ## Both ways -/

/-- the files that were modified before a cutoff are gone, with their contents, and nothing else -/
structure Expired (l : Location) (cutoff : Time.Timestamp) (w : World) (r : Except Failure Nat) (t : World) : Prop where
  outcome : r = .ok (w.files.select (.before cutoff)).length
  bucket : t.bucket.isSome = w.bucket.isSome
  files : t.files = w.files.remove (.before cutoff)
  objects : ∀ k o, t.object? k = some o ↔ w.object? k = some o ∧
    ∀ e ∈ w.files.rows, e.modified.instant < cutoff.instant → l.key e.space e.id ≠ .ok k

namespace Expired

theorem same {r r' : Except Failure Nat} {t t' : World} (h : Expired l cutoff w r t) (h' : Expired l cutoff w r' t') :
    SameStores t t' := by
  apply SameStores.of_objects
  · rw [h.files, h'.files]
  · rw [h.bucket, h'.bucket]
  · intro k
    apply Option.ext
    intro o
    rw [h.objects, h'.objects]

end Expired

/-- **The bulk deletion.** -/
theorem Files.deleteBefore_expires (paired : Paired site.location w) (calm : Calm w) (hb : w.bucket = some b)
    (pages : b.objects.length < site.pageLimit) (aware : cutoff.offset.isSome) (dated : cutoff.toUtc? ≠ none) :
    (deleteBefore site cutoff).Ends serve (fun r t _ => Expired site.location cutoff w r t) w events := by
  have bucket : w.bucket.isSome := by rw [hb]; rfl
  have any : (deleteBefore site cutoff).Only fun _ => True := Prog.only_any (fun _ => trivial) _
  have stays : (deleteBefore site cutoff).Ends serve (fun _ t _ => t.bucket.isSome = w.bucket.isSome) w events :=
    any.keeps (fun c t _ ht => (serve_bucket c t).trans ht) rfl
  have succeeds : (deleteBefore site cutoff).Ends serve (Prog.Succeeds fun _ t _ => ∀ k o, t.object? k = some o ↔
      w.object? k = some o ∧ ¬(Selection.before cutoff).Picks site.location k o) w events := by
    refine (calm_deleteSelected calm hb pages (paired.passable aware bucket) dated).bind_ok ?_
    rintro n t more ⟨-, left⟩
    exact ⟨n, rfl, left⟩
  have deletes : (deleteBefore site cutoff).Ends serve
      (fun r t more => (Deletion.selected (.before cutoff)).Deletes site.location w ⟨r, t, more⟩) w events :=
    Deletion.program_ends site (.selected (.before cutoff))
  refine ((succeeds.and deletes).and stays).mono ?_
  intro r t more ⟨⟨⟨n, returned, left⟩, deleted⟩, stays⟩
  subst returned
  obtain ⟨files, count⟩ := deleted.rows
  refine ⟨congrArg Except.ok count, stays, files, ?_⟩
  intro k o
  rw [left]
  apply and_congr_right
  intro ho
  rw [paired.picks_iff aware ho]
  constructor
  · intro unpicked e he old hk
    exact unpicked ⟨e, he, old, hk⟩
  · intro apart picked
    obtain ⟨e, he, old, hk⟩ := picked
    exact apart e he old hk

namespace Retention

/-- deletes the files that expired before a cutoff, in pages of a size -/
def expireFiles (size : Int) (cutoff : Time.Timestamp) (site : Site) : Op Nat :=
  match Cleaner.ofSize (files site) size with
  | .ok c => c.execute cutoff
  | .error failure => .fail failure

/-- **The cleanup.** -/
theorem expireFiles_expires (paired : Paired site.location w) (calm : Calm w) (bucket : w.bucket.isSome)
    (few : w.files.rows.length < 2 ^ 53) (dated : cutoff.toUtc? ≠ none) {size : Int} (positive : 1 ≤ size)
    (short : size < 2 ^ 63) :
    (expireFiles size cutoff site).Ends serve (fun r t _ => Expired site.location cutoff w r t) w events := by
  obtain ⟨utc, hutc⟩ := Option.ne_none_iff_exists'.1 dated
  have rows : ∀ e ∈ w.files.rows, IsSegment e.id ∧ ∃ key, site.location.key e.space e.id = .ok key := by
    intro e he
    obtain ⟨segment, k, o, time, hk, -⟩ := paired.rows e he
    exact ⟨segment, k, hk⟩
  have all := cull_all calm bucket few rows hutc (n := size.toNat) (by omega) (by omega) events
  have made : expireFiles size cutoff site = (Kind.files.cleaner site size.toNat (by omega)).execute cutoff := by
    rw [expireFiles, Cleaner.ofSize, dif_pos positive]
    rfl
  rw [made]
  refine all.mono ?_
  rintro r t more ⟨count, ⟨gone, culled⟩, empty⟩
  have lost : ∀ e ∈ w.files.rows, (e ∈ gone ↔ e.modified.instant < cutoff.instant) :=
    fun e he => culled.gone_iff calm empty he
  refine ⟨count, culled.bucket.trans bucket.symm, ?_, ?_⟩
  · apply FileTable.eq_of_rows
    rw [culled.rows_of_calm calm]
    apply List.filter_congr
    intro e he
    simp only [FileQuery.holds, lost e he, decide_not]
  · intro k o
    rw [culled.objects]
    apply and_congr_right
    intro _
    constructor
    · intro apart e he old
      exact apart e ((lost e he).2 old)
    · intro apart e he
      have row := List.mem_of_mem_filter (culled.old e he)
      exact apart e row ((lost e row).1 he)

end Retention

/-- **Both ways to delete files by their age agree.** Where each row has a content with its time and no other object is
in the location, and nothing strikes, a bulk deletion by a cutoff and a cleaner of files with pages of any size give the
same number, that of the rows before the cutoff, and leave the same rows and the same objects. -/
theorem deletions_by_age_agree (site : Site) (w : World) (paired : Paired site.location w) (calm : Calm w)
    (bucket : w.bucket.isSome) (few : w.files.rows.length < 2 ^ 53) (cutoff : Time.Timestamp)
    (aware : cutoff.offset.isSome) (dated : cutoff.toUtc? ≠ none) (size : Int) (positive : 1 ≤ size)
    (short : size < 2 ^ 63) :
    (w.perform site (Files.deleteBefore · cutoff)).outcome = .ok (w.files.select (.before cutoff)).length ∧
    (w.perform site (Retention.expireFiles size cutoff)).outcome = .ok (w.files.select (.before cutoff)).length ∧
    SameStores (w.perform site (Files.deleteBefore · cutoff)).state
      (w.perform site (Retention.expireFiles size cutoff)).state := by
  obtain ⟨b, hb⟩ := Option.isSome_iff_exists.1 bucket
  have pages : b.objects.length < (w.provide site).pageLimit := by
    show b.objects.length < w.bucket.elim 0 (·.objects.length) + 1
    rw [hb]
    exact Nat.lt_succ_self _
  have same : SameStores w w.cleared := ⟨rfl, rfl⟩
  have calm' : Calm w.cleared := ⟨calm.strikes, calm.refusals, calm.locked⟩
  have paired' : Paired (w.provide site).location w.cleared := paired.then_same same
  have bulk := run_of_ends (Files.deleteBefore_expires paired' calm' hb pages aware dated)
  have paged := run_of_ends (Retention.expireFiles_expires paired' calm' bucket few dated positive short)
  exact ⟨bulk.outcome, paged.outcome, bulk.same paged⟩

/-- two files with their contents, one of them a day older than the other, in a space that is not a segment -/
def dayApart : World :=
  let old : Time.Timestamp := (World.start.add? (-Time.day)).getD World.start
  let file (id : String) (modified : Time.Timestamp) : Entry := ⟨id, "a/../s", none, "a.txt", 0, "", "sha1", modified⟩
  let content (e : Entry) : Object := ⟨.empty, Content.metadataOf e⟩
  { World.fresh with
    bucket := some ((Bucket.empty.put "s/1" (content (file "1" old))).put "s/2" (content (file "2" World.start)))
    files := ⟨[file "1" old, file "2" World.start], by decide⟩ }

theorem deletions_by_age_agree_dayApart :
    Paired .top dayApart ∧ (dayApart.perform (.standard .top) (Files.deleteBefore · World.start)).outcome = .ok 1 ∧
    (dayApart.perform (.standard .top) (Retention.expireFiles 1 World.start)).outcome = .ok 1 := by
  have rows : ∀ e ∈ dayApart.files.rows, IsSegment e.id ∧ Location.top.key e.space e.id = .ok ("s/" ++ e.id) ∧
      e.modified.offset.isSome ∧
      (dayApart.object? ("s/" ++ e.id)).any fun o => Content.timeIn o.metadata == some e.modified := by
    decide +kernel
  have keys : ∀ k ∈ ["s/1", "s/2"], ∃ e ∈ dayApart.files.rows, Location.top.key e.space e.id = .ok k := by
    decide +kernel
  have paired : Paired .top dayApart := by
    refine ⟨?_, ?_, ?_⟩
    · intro e he
      obtain ⟨segment, hk, known, kept⟩ := rows e he
      obtain ⟨o, ho, read⟩ := (Option.any_eq_true _ _).1 kept
      exact ⟨segment, _, o, e.modified, hk, ho, beq_iff_eq.1 read, known, rfl⟩
    · intro start k o _ ho _
      exact keys k ((Bucket.mem_keys_iff).2 ⟨o, ho⟩)
    · intro empty
      cases empty
  obtain ⟨bulk, paged, -⟩ := deletions_by_age_agree (.standard .top) dayApart paired ⟨rfl, rfl, rfl⟩ rfl (by decide)
    World.start rfl (by decide +kernel) 1 (by decide) (by decide)
  refine ⟨paired, bulk.trans ?_, paged.trans ?_⟩
  · decide +kernel
  · decide +kernel

end Depot
