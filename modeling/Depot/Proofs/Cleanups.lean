/-
The cleanup: which records it deletes, how many pages it fetches, and what the command says.

Without faults and locks a cleanup deletes the files that expired before its cutoff, with their contents, and the
executions whose root had ended and was started before it, and nothing else (`Purged`). It counts the files and the roots,
and fetches just the pages that they fill (`cleanup_purges`). So there is nothing left to do for a second one with the same
cutoff (`Purged.expired_eq_zero`, `Purged.again`).
- `cleanup_exact`: what the command does with any arguments that ask for it, from what they are read as to the
  last line of its output.
-/
import Depot.Proofs.Arguments
import Depot.Proofs.Fetches

namespace Depot

namespace Retention

open World Key

variable {w t u : World} {site : Site} {l : Key.Location} {cutoff utc : Time.Timestamp} {n : Nat} {events : List Event}
  {gone : List Entry}

/-- what a cleanup relies on: no fault and no lock, a bucket, ids that are segments, spaces that are accepted, and fewer
records than would have to be rounded -/
structure Tended (l : Key.Location) (w : World) : Prop where
  calm : Calm w
  bucket : w.bucket.isSome = true
  rows : ∀ e ∈ w.files.rows, IsSegment e.id ∧ ∃ key, l.key e.space e.id = .ok key
  files : w.files.rows.length < 2 ^ 53
  executions : w.executions.rows.length < 2 ^ 53

/-- all records that expired before a cutoff are gone, and nothing else -/
structure Purged (l : Key.Location) (cutoff : Time.Timestamp) (w t : World) : Prop where
  rows : t.files.rows = w.files.rows.filter fun e => decide (cutoff.instant ≤ e.modified.instant)
  objects : ∀ k o, t.object? k = some o ↔ w.object? k = some o ∧
    ∀ e ∈ w.files.rows, e.modified.instant < cutoff.instant → l.key e.space e.id ≠ .ok k
  order : t.executions.rows.Sublist w.executions.rows
  executions : ∀ e, e ∈ t.executions.rows ↔ e ∈ w.executions.rows ∧ ∀ root : Execution,
    root.IsRootOf w.executions.rows e → ¬(root.endedAt.isSome ∧ root.startedAt.instant < cutoff.instant)

structure SameRecords (w t : World) : Prop extends SameStores w t where
  executions : t.executions = w.executions

theorem SameRecords.refl (w : World) : SameRecords w w :=
  ⟨.refl w, rfl⟩

theorem SameRecords.trans (h : SameRecords w t) (h' : SameRecords t u) : SameRecords w u :=
  ⟨h.toSameStores.trans h'.toSameStores, h'.executions.trans h.executions⟩

theorem Purged.congr {w' t' : World} (h : Purged l cutoff w t) (start : SameRecords w' w) (last : SameRecords t t') :
    Purged l cutoff w' t' := by
  refine ⟨?_, ?_, ?_, ?_⟩
  · rw [last.files, ← start.files]
    exact h.rows
  · rw [← start.files]
    intro k o
    rw [last.object?, ← start.object?]
    exact h.objects k o
  · rw [last.executions, ← start.executions]
    exact h.order
  · rw [last.executions, ← start.executions]
    exact h.executions

theorem SameRecords.expired (h : SameRecords w t) (k : Kind) : k.expired cutoff t = k.expired cutoff w := by
  cases k with
  | executions => exact congrArg (fun table : ExecutionTable => (table.expired cutoff).length) h.executions
  | files => exact congrArg (fun table : FileTable => (table.select (.before cutoff)).length) h.files

theorem Tended.congr (h : Tended l w) (calm : Calm t) (same : SameRecords w t) : Tended l t := by
  refine ⟨calm, ?_, ?_, ?_, ?_⟩
  · rw [same.bucket]
    exact h.bucket
  · rw [same.files]
    exact h.rows
  · rw [same.files]
    exact h.files
  · rw [same.executions]
    exact h.executions

/-! ## Runs of the cleaners -/

theorem Tended.few (tended : Tended l w) (k : Kind) : k.expired cutoff w < 2 ^ 53 := by
  cases k with
  | executions => exact (List.length_filter_le _ _).trans_lt tended.executions
  | files => exact (List.length_filter_le _ _).trans_lt tended.files

theorem prune_ends (tended : Tended l w) (dated : cutoff.toUtc? = some utc) (h : 0 < n) (short : n < 2 ^ 63)
    (events : List Event) :
    ((Kind.executions.cleaner site n h).execute cutoff).Ends serve (fun r t _ =>
      r = .ok (Kind.executions.expired cutoff w) ∧ Pruned cutoff w t ∧ t.executions.expired cutoff = []) w events := by
  have length := (oldestFirst_perm (·.startedAt) (w.executions.expired cutoff)).length_eq
  have goes : (executionStock site cutoff dated h (le_maxLimit short) w).stays = fun _ => false :=
    funext fun x => locksTree_of_calm tended.calm x.id
  have all := (executionStock site cutoff dated h (le_maxLimit short) w).execute_all goes
    (Pruned.refl tended.calm.strikes) (length ▸ tended.few .executions) short events
  refine all.mono ?_
  intro r t more ⟨deleted, pruned, empty⟩
  have same := (oldestFirst_perm (·.startedAt) (t.executions.expired cutoff)).symm
  exact ⟨deleted.trans (congrArg Except.ok length), pruned, (same.trans (.of_eq empty)).eq_nil⟩

theorem cull_all (calm : Calm w) (bucket : w.bucket.isSome = true) (few : w.files.rows.length < 2 ^ 53)
    (rows : ∀ e ∈ w.files.rows, IsSegment e.id ∧ ∃ key, site.location.key e.space e.id = .ok key)
    (dated : cutoff.toUtc? = some utc) (h : 0 < n) (short : n < 2 ^ 63) (events : List Event) :
    ((Kind.files.cleaner site n h).execute cutoff).Ends serve (fun r t _ => r = .ok (Kind.files.expired cutoff w) ∧
      (∃ gone, Culled site cutoff w gone t) ∧ t.files.select (.before cutoff) = []) w events := by
  have named : ∀ e ∈ w.files.rows, ∃ key, site.location.key e.space e.id = .ok key ∧ key ≠ "" := by
    intro e he
    obtain ⟨segment, key, hkey⟩ := rows e he
    exact ⟨key, hkey, Location.key_ne_empty segment hkey⟩
  have length := (oldestFirst_perm (·.modified) (w.files.select (.before cutoff))).length_eq
  have expired : (w.files.select (.before cutoff)).length < 2 ^ 53 := (List.length_filter_le _ _).trans_lt few
  have goes : (fileStock cutoff dated h (le_maxLimit short) w named).stays = fun _ => false := by
    funext x
    show w.locked.contains x.id = false
    rw [calm.locked, List.contains_nil]
  have all := (fileStock cutoff dated h (le_maxLimit short) w named).execute_all goes
    ⟨[], Culled.refl calm.strikes bucket⟩ (length ▸ expired) short events
  refine all.mono ?_
  intro r t more ⟨deleted, culled, empty⟩
  have same := (oldestFirst_perm (·.modified) (t.files.select (.before cutoff))).symm
  exact ⟨deleted.trans (congrArg Except.ok length), culled, (same.trans (.of_eq empty)).eq_nil⟩

theorem cull_ends (tended : Tended site.location w) (dated : cutoff.toUtc? = some utc) (h : 0 < n) (short : n < 2 ^ 63)
    (events : List Event) :
    ((Kind.files.cleaner site n h).execute cutoff).Ends serve (fun r t _ => r = .ok (Kind.files.expired cutoff w) ∧
      (∃ gone, Culled site cutoff w gone t) ∧ t.files.select (.before cutoff) = []) w events :=
  cull_all tended.calm tended.bucket tended.files tended.rows dated h short events

/-! ## What they leave -/

theorem Pruned.tended (h : Pruned cutoff w t) (tended : Tended l w) : Tended l t := by
  obtain ⟨gone, felled, -⟩ := h.felled
  have files := h.stores.files
  have calm : Calm t :=
    ⟨h.unstruck, h.refusals.trans tended.calm.refusals, h.locked.trans tended.calm.locked⟩
  refine ⟨calm, ?_, ?_, ?_, ?_⟩
  · rw [h.stores.bucket]
    exact tended.bucket
  · rw [files]
    exact tended.rows
  · rw [files]
    exact tended.files
  · exact felled.sub.length_le.trans_lt tended.executions

theorem Culled.tended (h : Culled site cutoff w gone t) (tended : Tended l w) : Tended l t := by
  have calm : Calm t :=
    ⟨h.unstruck, h.refusals.trans tended.calm.refusals, h.locked.trans tended.calm.locked⟩
  refine ⟨calm, h.bucket, ?_, ?_, ?_⟩
  · intro e he
    exact tended.rows e (List.mem_of_mem_filter (h.rows ▸ he))
  · rw [h.rows]
    exact (List.length_filter_le _ _).trans_lt tended.files
  · rw [h.executions]
    exact tended.executions

/-- once no expired file is left, those that are gone are the expired ones -/
theorem Culled.gone_iff (h : Culled site cutoff w gone t) (calm : Calm w) (empty : t.files.select (.before cutoff) = [])
    {e : Entry} (he : e ∈ w.files.rows) : e ∈ gone ↔ e.modified.instant < cutoff.instant := by
  constructor
  · intro lost
    exact of_decide_eq_true (List.mem_filter.1 (h.old e lost)).2
  · intro old
    by_contra kept
    have row : e ∈ t.files.rows := by
      rw [h.rows_of_calm calm]
      exact List.mem_filter.2 ⟨he, decide_eq_true kept⟩
    have left : e ∈ t.files.select (.before cutoff) := List.mem_filter.2 ⟨row, decide_eq_true old⟩
    rw [empty] at left
    cases left

/-- **After both cleaners have run, all expired records are gone and nothing else.** -/
theorem purged (pruned : Pruned cutoff w t) (ended : t.executions.expired cutoff = []) (calm : Calm t)
    (culled : Culled site cutoff t gone u) (empty : u.files.select (.before cutoff) = []) :
    Purged site.location cutoff w u := by
  obtain ⟨fallen, felled, old⟩ := pruned.felled
  have files := pruned.stores.files
  have lost : ∀ e ∈ w.files.rows, (e ∈ gone ↔ e.modified.instant < cutoff.instant) := by
    intro e he
    exact culled.gone_iff calm empty (files ▸ he)
  refine ⟨?_, ?_, ?_, ?_⟩
  · rw [culled.rows_of_calm calm, files]
    apply List.filter_congr
    intro e he
    rw [decide_eq_decide, lost e he, Int.not_lt]
  · intro k o
    rw [culled.objects, pruned.stores.object?]
    apply and_congr_right
    intro _
    constructor
    · intro apart e he before
      exact apart e ((lost e he).2 before)
    · intro apart e he
      have row : e ∈ w.files.rows := files ▸ List.mem_of_mem_filter (culled.old e he)
      exact apart e row ((lost e row).1 he)
  · rw [culled.executions]
    exact felled.sub
  · intro e
    rw [culled.executions, felled.mem_iff old ended]
    apply and_congr_right
    intro _
    apply forall₂_congr
    intro root isRoot
    simp [Execution.isExpired, isRoot.top]

theorem Purged.expired_eq_zero (h : Purged l cutoff w t) (k : Kind) : k.expired cutoff t = 0 := by
  cases k with
  | executions =>
    apply List.length_eq_zero_iff.2
    apply List.filter_eq_nil_iff.2
    intro e he expired
    obtain ⟨row, alive⟩ := (h.executions e).1 he
    have top : e.parent = none := ExecutionTable.top_of_mem_expired (List.mem_filter.2 ⟨he, expired⟩)
    apply alive e ⟨row, top, .refl⟩
    simpa [Execution.isExpired, top] using expired
  | files =>
    apply List.length_eq_zero_iff.2
    apply List.filter_eq_nil_iff.2
    intro e he expired
    rw [h.rows] at he
    have young := of_decide_eq_true (List.mem_filter.1 he).2
    exact absurd (of_decide_eq_true expired) (Int.not_lt.2 young)

/-- **A second cleanup with the same cutoff changes nothing.** -/
theorem Purged.again (h : Purged l cutoff w t) (h' : Purged l cutoff t u) (bucket : t.bucket.isSome = u.bucket.isSome) :
    SameRecords t u := by
  have young : ∀ e ∈ t.files.rows, cutoff.instant ≤ e.modified.instant := by
    intro e he
    rw [h.rows] at he
    exact of_decide_eq_true (List.mem_filter.1 he).2
  have alive : ∀ e ∈ t.executions.rows, e ∈ u.executions.rows := by
    intro e he
    rw [h'.executions e]
    refine ⟨he, ?_⟩
    intro root isRoot
    obtain ⟨row, spared⟩ := (h.executions root).1 isRoot.row
    exact spared root ⟨row, isRoot.top, .refl⟩
  refine ⟨?_, ?_⟩
  · apply SameStores.of_objects
    · apply FileTable.eq_of_rows
      rw [h'.rows]
      exact List.filter_eq_self.2 fun e he => decide_eq_true (young e he)
    · exact bucket.symm
    · intro k
      apply Option.ext
      intro o
      rw [h'.objects k o]
      constructor
      · intro ⟨there, _⟩
        exact there
      · intro there
        exact ⟨there, fun e he before => absurd before (Int.not_lt.2 (young e he))⟩
  · apply ExecutionTable.eq_of_rows
    have once : t.executions.rows.Nodup := t.executions.distinct.of_map
    exact h'.order.eq_of_length_le (once.subperm alive).length_le

/-! ## The cleanup -/

/-- a cleaner that does its work, with what it leaves and the calls that it makes -/
theorem runCleaner_ends {c : Cleaner service} {kind : Call → Bool} {R : World → Prop} {m i j : Nat}
    (run : (c.execute cutoff).Ends serve (fun r t _ => r = .ok m ∧ R t) w events)
    (number : (c.execute cutoff).calls serve kind w = j) :
    (runCleaner cutoff c).Ends (Prog.tally serve kind) (fun r t _ => r = .ok (c.name, .ok m) ∧ R t.1 ∧ t.2 = i + j)
      (w, i) events := by
  unfold runCleaner
  rw [Prog.ends_bind, Prog.ends_attempt]
  refine (run.counted number).mono ?_
  rintro r t more ⟨⟨rfl, left⟩, counted⟩
  exact ⟨rfl, left, counted⟩

theorem defaultCleaners_eq (site : Site) (h : 0 < n) :
    defaultCleaners site (some n) = .ok [Kind.executions.cleaner site n h, Kind.files.cleaner site n h] := by
  have size : 1 ≤ pageSizeOf site (some n) := by
    show 1 ≤ (n : Int)
    omega
  unfold defaultCleaners
  simp only [List.mapM_cons, List.mapM_nil, Cleaner.ofSize, dif_pos size]
  rfl

def counts (cutoff : Time.Timestamp) (w : World) : List (String × Nat) :=
  [("historic executions", Kind.executions.expired cutoff w), ("files", Kind.files.expired cutoff w)]

/-- **A cleanup deletes the expired records and counts them,** and fetches the pages that they fill. -/
theorem cleanup_purges (tended : Tended site.location w) (dated : cutoff.toUtc? = some utc) (h : 0 < n) (short : n < 2 ^ 63)
    (k : Kind) (i : Nat) (events : List Event) :
    (cleanup site (some n) cutoff).Ends (Prog.tally serve k.fetches) (fun r t _ => r = .ok (counts cutoff w) ∧
      Purged site.location cutoff w t.1 ∧ Tended site.location t.1 ∧ t.1.output = w.output ∧
      t.2 = i + k.expired cutoff w ⌈/⌉ n) (w, i) events := by
  unfold cleanup runCleanup
  rw [defaultCleaners_eq site h]
  simp only [List.mapM_cons, List.mapM_nil, LawfulMonad.bind_assoc, LawfulMonad.pure_bind]
  have pruning : ((Kind.executions.cleaner site n h).execute cutoff).Ends serve _ w events :=
    prune_ends tended dated h short events
  have roots := Kind.execute_calls .executions k tended.calm dated h short (tended.few .executions)
    (pruning.mono fun r t _ ht => ⟨_, ht.1⟩)
  apply (runCleaner_ends (i := i) pruning roots).bind_value
  rintro t events ⟨⟨pruned, ended⟩, counted⟩
  have tended' := pruned.tended tended
  have culling := cull_ends tended' dated h short events
  have files := Kind.execute_calls .files k tended'.calm dated h short (tended'.few .files)
    (culling.mono fun r t _ ht => ⟨_, ht.1⟩)
  have same : Kind.files.expired cutoff t.1 = Kind.files.expired cutoff w := by
    unfold Kind.expired
    rw [pruned.stores.files]
  apply (runCleaner_ends (i := t.2) culling files).bind_value
  rintro u events ⟨⟨⟨gone, culled⟩, empty⟩, counted'⟩
  refine ⟨?_, purged pruned ended tended'.calm culled empty, culled.tended tended', culled.output.trans pruned.output, ?_⟩
  · unfold counts
    rw [← same]
    rfl
  · rw [counted', counted, same]
    cases k <;> simp

end Retention

/-! ## The command -/

namespace Command

open Text World Retention

variable {site : Site} {w : World} {arguments : List String} {given : List Given} {days : Int} {size : Nat}
  {cutoff : Time.Timestamp}

def success (colored : Bool) (line : String) : String :=
  (if colored then "\x1b[32;1m" ++ line ++ "\x1b[0m" else line) ++ "\n"

def report (colored : Bool) (cutoff : Time.Timestamp) (days : Int) (executions files : Nat) : String :=
  "Deleting records older than " ++ cutoff.spaced ++ " (" ++ Numeral.ofInt days ++ " days)" ++ "\n" ++
    success colored ("Deleted " ++ Numeral.ofNat executions ++ " " ++ "historic executions") ++
    success colored ("Deleted " ++ Numeral.ofNat files ++ " " ++ "files")

/-- arguments and settings give the cleanup a number of days and the size of a page, which may be any numbers -/
structure Orders (site : Site) (arguments : List String) (given : List Given) (days size : Int) : Prop where
  request : Name.cleanup.request arguments = .ok (.run given)
  colors : (isGiven given forceColor && isGiven given noColor) = false
  days : ∃ setting, site.retentionDays = some setting ∧ numberOr setting (valueFor given retentionDays) = .ok days
  size : ∃ setting, site.pageSize = some setting ∧ numberOr setting (valueFor given pageSize) = .ok size

/-- **Any two numbers can be asked for,** unless they are too long to be read: the command looks up both defaults, also
where both numbers are given. -/
theorem orders_integers {size : Int} (period : site.retentionDays.isSome = true) (page : site.pageSize.isSome = true)
    (hdays : Numeral.IsShort days) (hsize : Numeral.IsShort size) :
    Orders site (integers days size) (givenIntegers days size) days size := by
  obtain ⟨period, hperiod⟩ := Option.isSome_iff_exists.1 period
  obtain ⟨page, hpage⟩ := Option.isSome_iff_exists.1 page
  exact ⟨request_integers days size hdays hsize, rfl, ⟨period, hperiod, rfl⟩, ⟨page, hpage, rfl⟩⟩

/-- numbers that the cleanup is given are checked before it starts -/
theorem call_orders {size : Int} (orders : Orders site arguments given days size) :
    call site "cleanup_expired" arguments = (Prog.ofExcept (checkDays days) >>= fun days =>
      Prog.ofExcept (checkSize size) >>= fun size => expire site (isGiven given forceColor) days size) := by
  obtain ⟨period, hperiod, hdays⟩ := orders.days
  obtain ⟨page, hpage, hsize⟩ := orders.size
  have name : Name.ofText? "cleanup_expired" = some .cleanup := by decide
  unfold call
  rw [name]
  dsimp only
  rw [orders.request]
  unfold Name.prepare Name.carryOut Name.run
  dsimp only
  rw [hperiod, hpage, orders.colors]
  show (Prog.ofExcept (numberOr period _ >>= checkDays) >>= fun days =>
    Prog.ofExcept (numberOr page _ >>= checkSize) >>= fun size => expire site (isGiven given forceColor) days size) = _
  rw [hdays, hsize]
  rfl

/-- arguments that ask for a cleanup lead to one -/
theorem call_cleanup (orders : Orders site arguments given days size) (past : 0 ≤ days) (pos : 0 < size) :
    call site "cleanup_expired" arguments = expire site (isGiven given forceColor) days size := by
  have hdays : checkDays days = .ok days := if_neg (Int.not_lt.2 past)
  have hsize : checkSize (size : Int) = .ok (size : Int) := if_neg (by omega)
  rw [call_orders orders, hdays, Prog.ofExcept_ok_bind, hsize, Prog.ofExcept_ok_bind]

/-- a cutoff some days before a time in UTC has a date in UTC -/
theorem dated_of_daysBefore {now : Time.Timestamp} (utc : now.offset = some 0) (h : daysBefore now days = .ok cutoff) :
    ∃ u, cutoff.toUtc? = some u := by
  have shape : ∃ wall, now.withWall? wall = some cutoff := by
    unfold daysBefore at h
    split at h
    · cases h
    · split at h
      · cases h
      · split at h
        · rename_i found
          cases h
          exact ⟨_, found⟩
        · cases h
  obtain ⟨wall, shape⟩ := shape
  unfold Time.Timestamp.withWall? at shape
  split at shape
  case isFalse => cases shape
  case isTrue within =>
    cases shape
    have instant : 0 ≤ (wall.toNat : Int) - now.offset.getD 0 ∧ (wall.toNat : Int) - now.offset.getD 0 < Time.limit := by
      rw [utc, Option.getD_some]
      omega
    exact ⟨_, dif_pos instant⟩

/-- a text was written, and no record is other than it was -/
structure Wrote (text : String) (w t : World) : Prop where
  same : SameRecords w t
  calm : Calm w → Calm t
  output : t.output = w.output ++ text

theorem writeLine_ends (k : Retention.Kind) (line : String) (w : World) (i : Nat) (events : List Event) :
    (writeLine line).Ends (Prog.tally serve k.fetches) (fun r t _ => r = .ok () ∧ Wrote (line ++ "\n") w t.1 ∧ t.2 = i)
      (w, i) events := by
  have quiet : k.fetches (.print (line ++ "\n")) = false := by cases k <;> rfl
  have number : i + (k.fetches (.print (line ++ "\n"))).toNat = i := by
    rw [quiet]
    rfl
  refine ⟨rfl, ⟨⟨⟨rfl, rfl⟩, rfl⟩, ?_, rfl⟩, number⟩
  intro calm
  exact ⟨calm.strikes, calm.refusals, calm.locked⟩

theorem writeSuccess_ends (k : Retention.Kind) (colored : Bool) (line : String) (w : World) (i : Nat)
    (events : List Event) : (writeSuccess colored line).Ends (Prog.tally serve k.fetches) (fun r t _ =>
      r = .ok () ∧ Wrote (success colored line) w t.1 ∧ t.2 = i) (w, i) events :=
  writeLine_ends k _ w i events

theorem writeCounts_ends (k : Retention.Kind) (colored : Bool) (executions files : Nat) (w : World) (i : Nat)
    (events : List Event) :
    ([("historic executions", executions), ("files", files)].forM fun (name, n) =>
      writeSuccess colored ("Deleted " ++ Numeral.ofNat n ++ " " ++ name) : Op Unit).Ends (Prog.tally serve k.fetches)
      (fun r t _ => r = .ok () ∧ Wrote (success colored ("Deleted " ++ Numeral.ofNat executions ++ " " ++ "historic executions") ++
        success colored ("Deleted " ++ Numeral.ofNat files ++ " " ++ "files")) w t.1 ∧ t.2 = i) (w, i) events := by
  show (writeSuccess colored _ >>= fun _ => writeSuccess colored _ >>= fun _ => pure ()).Ends _ _ _ _
  apply (writeSuccess_ends k colored _ w i events).bind_value
  intro t events ⟨first, number⟩
  apply (writeSuccess_ends k colored _ t.1 t.2 events).bind_value
  intro u events ⟨second, number'⟩
  have both : SameRecords w u.1 := first.same.trans second.same
  refine ⟨rfl, ⟨both, fun calm => second.calm (first.calm calm), ?_⟩, number'.trans number⟩
  rw [second.output, first.output, String.append_assoc]

/-- the cleaners have nothing to report -/
theorem reporting_ends {utc : Time.Timestamp} (tended : Tended site.location w) (dated : cutoff.toUtc? = some utc)
    (pos : 0 < size) (short : size < 2 ^ 63) (k : Retention.Kind) (i : Nat) (events : List Event) :
    (reporting isCleanup (Retention.cleanup site (some size) cutoff)).Ends (Prog.tally serve k.fetches)
      (fun r t _ => r = .ok (counts cutoff w) ∧ Purged site.location cutoff w t.1 ∧ Tended site.location t.1 ∧
        t.1.output = w.output ∧ t.2 = i + k.expired cutoff w ⌈/⌉ size) (w, i) events := by
  apply (cleanup_purges tended dated pos short k i events).rescue
  · intro found t events h
    exact h
  · intro e t events ⟨failed, _⟩
    cases failed

/-- **The command deletes the expired records,** fetches the pages that they fill, and writes how many they were. -/
theorem expire_ends (tended : Tended site.location w) (utc : w.clock.offset = some 0)
    (dated : daysBefore w.clock days = .ok cutoff) (pos : 0 < size) (short : size < 2 ^ 63) (colored : Bool)
    (k : Retention.Kind) (i : Nat) (events : List Event) :
    (expire site colored days size).Ends (Prog.tally serve k.fetches) (fun r t _ => r = .ok () ∧
      Purged site.location cutoff w t.1 ∧ Tended site.location t.1 ∧
      t.1.output = w.output ++
        report colored cutoff days (Retention.Kind.executions.expired cutoff w)
          (Retention.Kind.files.expired cutoff w) ∧
      t.2 = i + k.expired cutoff w ⌈/⌉ size) (w, i) events := by
  obtain ⟨utc, hutc⟩ := dated_of_daysBefore utc dated
  have quiet : k.fetches .now = false := by cases k <;> rfl
  have clock : Prog.tally (I := service) serve k.fetches .now (w, i) =
      (w.clock, ({ w with clock := (w.clock.add? w.tick).getD w.clock }, i)) := by
    unfold Prog.tally
    rw [quiet]
    rfl
  unfold expire
  rw [Op.ends_ask_bind, clock]
  dsimp only
  rw [dated, Prog.ofExcept_ok_bind]
  apply (writeLine_ends k _ _ i events).bind_value
  intro t events ⟨wrote, number⟩
  have same : SameRecords w t.1 := ⟨⟨wrote.same.bucket, wrote.same.files⟩, wrote.same.executions⟩
  have calm : Calm t.1 := wrote.calm ⟨tended.calm.strikes, tended.calm.refusals, tended.calm.locked⟩
  apply (reporting_ends (tended.congr calm same) hutc pos short k t.2 events).bind_value
  intro u events ⟨purged, tended', output, number'⟩
  refine (writeCounts_ends k colored _ _ u.1 u.2 events).mono ?_
  intro r v _ ⟨done, told, number''⟩
  refine ⟨done, purged.congr same told.same, tended'.congr (told.calm tended'.calm) told.same, ?_, ?_⟩
  · rw [told.output, output, wrote.output, same.expired, same.expired]
    unfold report
    simp only [String.append_assoc]
  · rw [number'', number', number, same.expired]

/-- the run of the cleanup as it is called with arguments -/
def cleaned (site : Site) (arguments : List String) (w : World) : Prog.Run World Unit :=
  w.run (call site "cleanup_expired" arguments)

/-- **The cleanup deletes all expired records and nothing else,** says how many they were, and fetches the pages that they
fill; run again with the same cutoff, the cleaners find nothing. -/
theorem cleanup_exact (site : Site) (w : World) (arguments : List String) (given : List Given) (days size : Nat)
    (cutoff : Time.Timestamp) (orders : Orders site arguments given days size) (pos : 0 < size) (short : size < 2 ^ 63)
    (utc : w.clock.offset = some 0) (dated : daysBefore w.clock days = .ok cutoff) (tended : Tended site.location w) :
    (cleaned site arguments w).outcome = .ok () ∧ Purged site.location cutoff w (cleaned site arguments w).state ∧
    (cleaned site arguments w).state.output = w.output ++ report (isGiven given forceColor) cutoff days
      (Retention.Kind.executions.expired cutoff w) (Retention.Kind.files.expired cutoff w) ∧
    (∀ k : Retention.Kind, (call site "cleanup_expired" arguments).calls serve k.fetches w =
      k.expired cutoff w ⌈/⌉ size) ∧
    ((cleaned site arguments w).state.run (Retention.cleanup site (some size) cutoff)).outcome =
      .ok [("historic executions", 0), ("files", 0)] ∧
    SameRecords (cleaned site arguments w).state
      ((cleaned site arguments w).state.run (Retention.cleanup site (some size) cutoff)).state := by
  have called := call_cleanup orders (Int.natCast_nonneg days) pos
  have run (k : Retention.Kind) := expire_ends tended utc dated pos short (isGiven given forceColor) k 0 []
  have first (k : Retention.Kind) := (Prog.ends_iff _ _ _ _).1 ((Prog.ends_tally _ _ _ _ _).1 (called ▸ run k))
  obtain ⟨outcome, purged, tended', output, -⟩ := first .files
  obtain ⟨u, hu⟩ := dated_of_daysBefore utc dated
  have second := cleanup_purges tended' hu pos short .files 0 []
  obtain ⟨outcome', purged', tended'', -⟩ := (Prog.ends_iff _ _ _ _).1 ((Prog.ends_tally _ _ _ _ _).1 second)
  refine ⟨outcome, purged, output, fun k => Nat.add_left_cancel (first k).2.2.2.2, ?_, ?_⟩
  · refine outcome'.trans ?_
    unfold counts
    rw [purged.expired_eq_zero, purged.expired_eq_zero]
  · exact purged.again purged' (tended'.bucket.trans tended''.bucket.symm)

/-- two files, one of them old, and three executions: one that is over with the one that it started, and one that is not -/
def overdue : World :=
  let ago (days : Int) : Time.Timestamp := (World.start.add? (-(days * Time.day))).getD World.start
  let file (id : String) (days : Int) : Entry := ⟨id, "s", none, "a.txt", 0, "", "sha1", ago days⟩
  let content : Object := ⟨.empty, []⟩
  { World.fresh with
    bucket := some (((Bucket.empty.put "s/1" content).put "s/2" content).put "other" content)
    files := ⟨[file "1" 30, file "2" 1], by decide⟩
    executions := ⟨[⟨"a", none, "d", "s", ago 30, some (ago 20)⟩, ⟨"b", some "a", "d", "s", ago 29, none⟩,
      ⟨"c", none, "d", "s", ago 30, none⟩], by decide⟩ }

theorem cleanup_exact_overdue :
    (cleaned (.standard .top) (integers 1 1) overdue).state.files.rows.map (·.id) = ["2"] ∧
    (∀ e ∈ (cleaned (.standard .top) (integers 1 1) overdue).state.executions.rows, e.id ≠ "b") ∧
    (cleaned (.standard .top) (integers 1 1) overdue).state.output =
      "Deleting records older than 2023-12-31 00:00:00+00:00 (1 days)\n" ++ "Deleted 1 historic executions\n" ++
        "Deleted 1 files\n" := by
  have dated : daysBefore overdue.clock (1 : Nat) = .ok ((World.start.add? (-Time.day)).getD World.start) := by
    decide +kernel
  have tended : Tended .top overdue := by
    have keys : ∀ e ∈ overdue.files.rows, Key.IsSegment e.id ∧ Key.Location.top.key e.space e.id = .ok ("s/" ++ e.id) := by
      decide +kernel
    exact ⟨⟨rfl, rfl, rfl⟩, rfl, fun e he => ⟨(keys e he).1, _, (keys e he).2⟩, by decide, by decide⟩
  obtain ⟨-, purged, output, -⟩ := cleanup_exact (.standard .top) overdue (integers 1 1) (givenIntegers 1 1) 1 1 _
    (orders_integers rfl rfl (by decide) (by decide)) (by decide) (by decide) (by decide +kernel) dated tended
  refine ⟨?_, ?_, ?_⟩
  · rw [purged.rows]
    decide +kernel
  · intro e he same
    obtain ⟨row, alive⟩ := (purged.executions e).1 he
    have child : ∀ e ∈ overdue.executions.rows, e.id = "b" → e.parent = some "a" := by decide +kernel
    apply alive (overdue.executions.rows.head (by decide))
    · exact ⟨List.head_mem _, rfl, .single ⟨e, row, rfl, child e row same⟩⟩
    · decide +kernel
  · rw [output]
    decide +kernel

end Command

end Depot
