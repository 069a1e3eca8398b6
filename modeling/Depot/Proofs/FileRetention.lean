/-
What retention of files leaves, whatever fails on its way.

The content of a file is removed before its row, so an item can fail with both still there, or with its row alone; later
pages hold it again then. Each deletion says rightly whether it removed the row (`ThinnedBy.delete_ends`). So the cleaner
keeps account of the rows that are gone (`files_account`), and touches nothing of a file that has not expired
(`Thinned.kept`).
-/
import Depot.Proofs.Accounts
import Depot.Proofs.Atomicity
import Depot.Proofs.Fetches

namespace Depot.Retention

open World Key

variable {l : Location} {site : Site} {cutoff utc : Time.Timestamp} {w t u : World} {n m : Nat} {x e : Entry}
  {events : List Event}

/-! ## What retention may change -/

/-- some files are gone that had expired before a cutoff, and some contents at the keys of such files, and the stores are as
they were otherwise -/
structure Thinned (l : Location) (cutoff : Time.Timestamp) (w t : World) : Prop where
  rows : t.files.rows.Sublist w.files.rows
  old : ∀ e ∈ w.files.rows, e ∉ t.files.rows → e.modified.instant < cutoff.instant
  objects : ∀ k, t.object? k = w.object? k ∨ t.object? k = none ∧
    ∃ e ∈ w.files.rows, e.modified.instant < cutoff.instant ∧ l.key e.space e.id = .ok k

structure ThinnedBy (l : Location) (cutoff : Time.Timestamp) (w : World) (n : Nat) (t : World) : Prop
    extends Thinned l cutoff w t where
  number : n + t.files.rows.length = w.files.rows.length

namespace ThinnedBy

theorem refl (l : Location) (cutoff : Time.Timestamp) (w : World) : ThinnedBy l cutoff w 0 w where
  rows := List.Sublist.refl _
  old _ he gone := absurd he gone
  objects _ := .inl rfl
  number := Nat.zero_add _

theorem then_same (h : ThinnedBy l cutoff w n t) (same : SameStores t u) : ThinnedBy l cutoff w n u where
  rows := same.files ▸ h.rows
  old e he gone := h.old e he (same.files ▸ gone)
  objects k := same.object? k ▸ h.objects k
  number := same.files ▸ h.number

/-- **The content of an expired file is removed, and its row then or not at all.** -/
theorem delete (h : ThinnedBy l cutoff w n t) (hx : x ∈ w.files.rows) (old : x.modified.instant < cutoff.instant)
    {b : Bucket} {key : String} (hkey : l.key x.space x.id = .ok key) (hb : t.bucket = some b)
    (hu : u.bucket = some (b.erase [key])) {q : FileQuery} (own : ∀ e ∈ t.files.rows, q.holds e = true → e = x)
    (rows : u.files = t.files.remove q) : ThinnedBy l cutoff w (n + (t.files.select q).length) u where
  rows := rows ▸ List.filter_sublist.trans h.rows
  old e he gone := by
    by_cases there : e ∈ t.files.rows
    · rw [rows, FileTable.mem_remove, not_and, Bool.not_eq_false] at gone
      exact own e there (gone there) ▸ old
    · exact h.old e he there
  objects k := by
    rw [object?_erase hb hu]
    split
    case isTrue hk => exact .inr ⟨rfl, x, hx, old, List.mem_singleton.1 hk ▸ hkey⟩
    case isFalse => exact h.objects k
  number := by
    have split : t.files.rows.length = (t.files.select q).length + (t.files.remove q).rows.length :=
      List.length_eq_length_filter_add q.holds
    have number := h.number
    rw [rows]
    omega

end ThinnedBy

/-- **A file that has not expired keeps its row and its content.** -/
theorem Thinned.kept (h : Thinned l cutoff w t) (names : ∀ e ∈ w.files.rows, IsSegment e.id) (he : e ∈ w.files.rows)
    (young : cutoff.instant ≤ e.modified.instant) :
    e ∈ t.files.rows ∧ ∀ k, l.key e.space e.id = .ok k → t.object? k = w.object? k := by
  refine ⟨by_contra fun gone => absurd (h.old e he gone) (not_lt.2 young), fun k hk => ?_⟩
  refine (h.objects k).resolve_right ?_
  rintro ⟨-, x, hx, old, hkey⟩
  have same : x = e := List.inj_on_of_nodup_map w.files.distinct hx he
    (Location.key_id (names x hx) (names e he) hkey hk)
  exact absurd (same ▸ old) (not_lt.2 young)

/-! ## Deleting one file -/

/-- **A file is deleted or not, and its reply says which,** whatever fails on the way. -/
theorem ThinnedBy.delete_ends (h : ThinnedBy site.location cutoff w n t) (hx : x ∈ w.files.rows)
    (old : x.modified.instant < cutoff.instant) : (Files.delete site x.space x.id).Ends serve (fun r u _ =>
      ThinnedBy site.location cutoff w (n + Cleaner.said r) u) t events := by
  have own : ∀ e ∈ t.files.rows, (FileQuery.file x.space x.id).holds e = true → e = x := by
    intro e he held
    simp only [FileQuery.holds, Bool.and_eq_true, beq_iff_eq] at held
    exact List.inj_on_of_nodup_map w.files.distinct (h.rows.subset he) hx held.2
  refine (Files.delete_ends x.space x.id).mono fun r u _ hu => ?_
  rcases hu with ⟨failure, rfl, same⟩ | ⟨key, b, hkey, hb, hu, ⟨⟨failure, rfl⟩, files⟩ | ⟨rfl, files⟩⟩
  · exact h.then_same same
  · -- the row stays without its content, which is the same as a removal of no row
    have nothing : FileQuery.holds (.inSpaces []) = fun _ => false := rfl
    have removed : u.files = t.files.remove (.inSpaces []) :=
      files.trans (FileTable.remove_none (fun e => by rw [nothing]) t.files).symm
    have number : (t.files.select (.inSpaces [])).length = 0 := by
      rw [FileTable.select, nothing, List.filter_false, List.length_nil]
    have kept := h.delete hx old hkey hb hu (fun e _ held => by rw [nothing] at held; cases held) removed
    rwa [number] at kept
  · have one := t.files.length_select_file x.space x.id
    have less := h.delete hx old hkey hb hu own files
    interval_cases number : (t.files.select (.file x.space x.id)).length
    · exact less
    · exact less

/-! ## Runs -/

theorem files_describes (site : Site) (h : 0 < n) : (Kind.files.cleaner site n h).Describes :=
  fun e => ⟨e.description, rfl⟩

theorem serve_countFiles {q : FileQuery} {number : Nat} (h : (serve (.countFiles q) w).1 = .ok number) :
    number = (w.files.select q).length := by
  rcases statement_cases w .selectFiles (fun w => (.ok (w.files.select q).length, w)) with
    ⟨f, strikes, struck, -⟩ | ⟨strikes, reached, -⟩
  · rw [serve, struck] at h
    cases h
  · rw [serve, reached] at h
    exact (Except.ok.inj h).symm

theorem count_files_ends (dated : cutoff.toUtc? = some utc) (h : 0 < n) (events : List Event) :
    ((Kind.files.cleaner site n h).items.count cutoff).Ends serve (fun r t _ => SameStores w t ∧
      ∀ total, r = .ok total → total = (Kind.files.expired cutoff w : Int)) w events := by
  show (Files.count (.before cutoff) >>= fun n => pure (n : Int) : Op Int).Ends _ _ _ _
  rw [Files.count, Files.prepare, inUtc_eq dated]
  show (Op.ask (.countFiles (.before utc)) >>= fun r => Prog.ofReply r >>= fun n => pure (n : Int) : Op Int).Ends _ _ _ _
  rw [Op.ends_ask_bind]
  have same : SameStores w (serve (.countFiles (.before utc)) w).2 := serve_reads (by exact trivial) w
  cases reply : (serve (.countFiles (.before utc)) w).1 with
  | error f => exact ⟨same, fun _ failed => by cases failed⟩
  | ok number =>
    refine ⟨same, fun total counted => ?_⟩
    rw [← Except.ok.inj counted, serve_countFiles reply, select_utc dated]
    rfl

theorem fetch_files_ends (cutoff : Time.Timestamp) (h : 0 < n) (events : List Event) :
    ((Kind.files.cleaner site n h).items.fetchPage cutoff n).Ends serve (fun r t _ => SameStores w t ∧
      ∀ page : List Entry, r = .ok page → ∀ e ∈ page, e ∈ w.files.select (.before cutoff)) w events :=
  ((only_fetchFiles (fun _ _ => trivial) cutoff n).keeps (fun _ t reads same => same.trans (serve_reads reads t))
    (SameStores.refl w)).and (pageOf_files_ends n)

/-- **The cleaner for files keeps account of the files that are gone.** -/
theorem files_account (site : Site) (dated : cutoff.toUtc? = some utc) (h : 0 < n) (w : World) :
    (Kind.files.cleaner site n h).Accounts serve cutoff (ThinnedBy site.location cutoff w) fun e =>
      e ∈ w.files.rows ∧ e.modified.instant < cutoff.instant where
  count m t events ht := (count_files_ends dated h events).mono fun _ _ _ hu => ht.then_same hu.1
  fetch m t events ht := by
    refine (fetch_files_ends cutoff h events).mono fun r u _ hu => ⟨ht.then_same hu.1, fun page given e he => ?_⟩
    obtain ⟨row, old⟩ := List.mem_filter.1 (hu.2 page given e he)
    exact ⟨ht.rows.subset row, of_decide_eq_true old⟩
  delete e m t events he ht := ht.delete_ends he.1 he.2

/-- **Retention of files is safe and keeps account, whatever fails.** Where the ids of the rows are segments and there are
fewer of them than would have to be rounded, let a cleaner for files run with pages of a size that the database takes:
- no deletion of a single file breaks a run off;
- a run that ends well has fetched the pages that the counted files fill, and gives the number of rows that are gone;
- however it ends, only expired rows are gone and only contents at the keys of such, so a file that has not expired keeps
its row and its content;
- a run fails only where the count does, and nothing has changed, or where a page is not fetched, and what the pages before
it deleted stays deleted. -/
theorem file_retention_accounts (site : Site) (w : World) (names : ∀ e ∈ w.files.rows, IsSegment e.id)
    (few : w.files.rows.length < 2 ^ 53) (cutoff : Time.Timestamp) (dated : ∃ utc, cutoff.toUtc? = some utc) (n : Nat)
    (h : 0 < n) (short : n < 2 ^ 63) :
    let c := Kind.files.cleaner site n h
    let run := w.run (c.execute cutoff)
    (∀ u e, ∃ deleted, (World.run u (c.deleteSafely e)).outcome = .ok deleted) ∧
    (∀ m, run.outcome = .ok m → (c.execute cutoff).calls serve Kind.files.fetches w = Kind.files.expired cutoff w ⌈/⌉ n ∧
      ThinnedBy site.location cutoff w m run.state) ∧
    Thinned site.location cutoff w run.state ∧
    (∀ e ∈ w.files.rows, cutoff.instant ≤ e.modified.instant → e ∈ run.state.files.rows ∧
      ∀ k, site.location.key e.space e.id = .ok k → run.state.object? k = w.object? k) ∧
    ∀ failure, run.outcome = .error failure →
      (c.items.count cutoff).Gives serve w (.error failure) run.state ∧ SameStores w run.state ∨
      ∃ j m u, j < Kind.files.expired cutoff w ⌈/⌉ n ∧ (c.begin cutoff j).Gives serve w (.ok m) u ∧
        ThinnedBy site.location cutoff w m u ∧ (c.items.fetchPage cutoff n).Gives serve u (.error failure) run.state ∧
        SameStores u run.state := by
  obtain ⟨utc, dated⟩ := dated
  intro c run
  have describes : c.Describes := files_describes site h
  have account : c.Accounts serve cutoff (ThinnedBy site.location cutoff w) _ := files_account site dated h w
  have start := ThinnedBy.refl site.location cutoff w
  have divided : c.pages (Kind.files.expired cutoff w) = .ok ((Kind.files.expired cutoff w ⌈/⌉ n : Nat) : Int) :=
    pages_eq ((List.length_filter_le _ _).trans_lt few) short
  obtain ⟨m, thinned, number⟩ := World.run_of_ends (account.execute_ends describes start)
  refine ⟨fun u e => ?single, fun k returned => ⟨?fetches, number k returned ▸ thinned⟩, thinned.toThinned,
    fun e he young => thinned.kept names he young, fun failure failed => ?fails⟩
  case single =>
    have any (events : List Event) : (c.items.deleteOne e).Ends serve (fun _ _ _ => True) u events :=
      Prog.ends_of _ (fun _ _ _ => trivial) u events
    obtain ⟨deleted, returned, -⟩ := World.run_of_ends (c.deleteSafely_ends describes any)
    exact ⟨deleted, returned⟩
  case fetches =>
    have done : (c.execute cutoff).Ends serve (fun r _ _ => ∃ m, r = .ok m) w [] :=
      (Prog.ends_iff _ _ _ _).2 ⟨k, returned⟩
    exact (Kind.files.cleaner_fetches site dated h).execute_calls
      (fun events => (count_files_ends dated h events).mono fun _ _ _ hu => hu.2) divided done
  case fails =>
    rcases c.execute_breaksOff describes ⟨failed, rfl⟩ with counting | ⟨total, counted, undivided⟩ |
      ⟨total, pages, u, v, k, j, counted, enough, early, before, failed⟩
    · exact .inl ⟨counting, ((count_files_ends dated h []).of_gives counting).1⟩
    · rw [((count_files_ends dated h []).of_gives counted).2 total rfl, divided] at undivided
      cases undivided
    · rw [((count_files_ends dated h []).of_gives counted).2 total rfl, divided] at enough
      obtain rfl := Except.ok.inj enough
      have begun : (c.begin cutoff j).Ends serve (fun r t _ => ∃ n, ThinnedBy site.location cutoff w n t ∧
          ∀ m, r = .ok m → m = n) w [] := account.begin_ends describes start j
      obtain ⟨k', thinned, number⟩ := begun.of_gives before
      refine .inr ⟨j, k, v, Int.ofNat_lt.1 early, before, number k rfl ▸ thinned, failed, ?_⟩
      exact ((fetch_files_ends cutoff h []).of_gives failed).1

theorem numbered_nodup : ["1", "2"].Nodup := by decide

/-- a file that expired before the last day and is locked, and one that did not expire -/
def lockedOut : World :=
  let ago (days : Int) : Time.Timestamp := (World.start.add? (-(days * Time.day))).getD World.start
  let file (id : String) (days : Int) : Entry := ⟨id, "s", none, "a.txt", 0, "", "sha1", ago days⟩
  let content : Object := ⟨.empty, []⟩
  { World.fresh with
    bucket := some ((Bucket.empty.put "s/1" content).put "s/2" content)
    files := ⟨[file "1" 30, file "2" 1], numbered_nodup⟩
    locked := ["1"] }

def dayAgo : Time.Timestamp := (World.start.add? (-Time.day)).getD World.start

theorem file_retention_accounts_lockedOut :
    let c := Kind.files.cleaner (.standard .top) 1 Nat.one_pos
    let run := lockedOut.run (c.execute dayAgo)
    ((∀ e ∈ lockedOut.files.rows, IsSegment e.id) ∧ lockedOut.files.rows.length < 2 ^ 53 ∧
      ∃ utc, dayAgo.toUtc? = some utc) ∧
    (run.outcome = .ok 0 ∧ (run.state.object? "s/1").isNone) ∧
    (c.execute dayAgo).calls serve Kind.files.fetches lockedOut = 1 ∧ ThinnedBy .top dayAgo lockedOut 0 run.state ∧
    run.state.object? "s/2" = lockedOut.object? "s/2" := by
  intro c run
  have names : ∀ e ∈ lockedOut.files.rows, IsSegment e.id := by decide +kernel
  have dated : ∃ utc, dayAgo.toUtc? = some utc := Option.isSome_iff_exists.1 (by decide +kernel)
  have few : lockedOut.files.rows.length < 2 ^ 53 := by decide
  obtain ⟨-, accounts, -, kept, -⟩ :=
    file_retention_accounts (.standard .top) lockedOut names few dayAgo dated 1 Nat.one_pos (by decide)
  have returned : run.outcome = .ok 0 := by decide +kernel
  obtain ⟨fetches, thinned⟩ := accounts 0 returned
  have young : ∃ e ∈ lockedOut.files.rows, dayAgo.instant ≤ e.modified.instant ∧
      Location.top.key e.space e.id = .ok "s/2" := by
    decide +kernel
  obtain ⟨e, he, hyoung, hkey⟩ := young
  refine ⟨⟨names, few, dated⟩, ⟨returned, by decide +kernel⟩, ?_, thinned, (kept e he hyoung).2 "s/2" hkey⟩
  exact fetches.trans (by decide +kernel)

end Depot.Retention
