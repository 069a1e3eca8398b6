/-
What runs of the cleanup keep.

A cleaner counts, fetches and deletes. What each of these keeps, its run keeps (`Cleaner.Keeps.execute_ends`), however
many pages it has and whatever fails. The cleanup runs two cleaners in turn; the one for executions only reads as far
as the stores of files go, so it keeps what reading and the deletion of a file with a row keep (`cleanup_ends`).
-/
import Depot.Proofs.Calls
import Depot.Proofs.Deletion

namespace Depot.Retention

/-! ## Cleaners -/

namespace Cleaner

variable {I : Interface} {σ : Type} {serve : (c : I.Call) → σ → I.Reply c × σ} {J : σ → List Event → Prop}
  {c : Cleaner I} {good : c.items.Item → Prop} {cutoff : Time.Timestamp} {s : σ} {events : List Event}

/-- the parts of a cleaner keep something, deletions of items that can be fetched among them -/
structure Keeps (c : Cleaner I) (serve : (c : I.Call) → σ → I.Reply c × σ) (cutoff : Time.Timestamp)
    (J : σ → List Event → Prop) (good : c.items.Item → Prop) : Prop where
  note : ∀ e s events, J s events → J s (e :: events)
  count : ∀ s events, J s events → (c.items.count cutoff).Ends serve (fun _ s events => J s events) s events
  fetch : ∀ s events, J s events → (c.items.fetchPage cutoff c.pageSize).Ends serve (fun r s events =>
    J s events ∧ ∀ page, r = .ok page → ∀ item ∈ page, good item) s events
  delete : ∀ item s events, good item → J s events →
    (c.deleteSafely item).Ends serve (fun _ s events => J s events) s events

namespace Keeps

theorem deletePage_ends (h : c.Keeps serve cutoff J good) (count : Nat) (hs : J s events) :
    (c.deletePage cutoff count).Ends serve (fun _ s events => J s events) s events := by
  refine (h.fetch s events hs).bind (fun page t more ht => ?_) (fun e t more ht => ht.1)
  refine Prog.Ends.foldlM (fun rest _ s events => J s events ∧ ∀ item ∈ rest, good item)
    (fun item rest n s events hr => ?_) (fun n s events hr => hr.1) page count t more ⟨ht.1, ht.2 page rfl⟩
  refine (h.delete item s events (hr.2 item List.mem_cons_self) hr.1).bind (fun deleted t more ht => ?_)
    (fun e t more ht => ht)
  exact ⟨ht, fun x hx => hr.2 x (List.mem_cons_of_mem _ hx)⟩

theorem deletePages_ends (h : c.Keeps serve cutoff J good) (n count : Nat) (hs : J s events) :
    (c.deletePages cutoff n count).Ends serve (fun _ s events => J s events) s events := by
  induction n generalizing count s events with
  | zero => exact hs
  | succ n ih =>
    exact (h.deletePage_ends count hs).bind (fun count t more ht => ih count ht) (fun e t more ht => ht)

/-- **What its parts keep, a run of a cleaner keeps.** -/
theorem execute_ends (h : c.Keeps serve cutoff J good) (hs : J s events) :
    (c.execute cutoff).Ends serve (fun _ s events => J s events) s events := by
  rw [execute, Prog.ends_record_bind]
  refine (h.count _ _ (h.note _ _ _ hs)).bind (fun total t more ht => ?_) (fun e t more ht => ht)
  cases c.pages total with
  | error e => exact ht
  | ok pages =>
    rw [Prog.ofExcept_ok_bind, Prog.ends_record_bind]
    refine (h.deletePages_ends _ _ (h.note _ _ _ ht)).bind (fun n u more hu => ?_) (fun e u more hu => hu)
    exact h.note _ _ _ hu

end Keeps

end Cleaner

section Cleanup

variable {I : Interface} {σ : Type} {serve : (c : I.Call) → σ → I.Reply c × σ} {J : σ → List Event → Prop}
  {cutoff : Time.Timestamp} {s : σ} {events : List Event}

/-- what runs of its cleaners keep, a cleanup keeps -/
theorem runCleanup_ends {cleaners : List (Cleaner I)} (note : ∀ e s events, J s events → J s (e :: events))
    (h : ∀ c ∈ cleaners, ∀ s events, J s events → (c.execute cutoff).Ends serve (fun _ s events => J s events) s events)
    (hs : J s events) : (runCleanup cleaners cutoff).Ends serve (fun _ s events => J s events) s events := by
  rw [runCleanup]
  have outcomes : (cleaners.mapM (runCleaner cutoff)).Ends serve (fun _ s events => J s events) s events := by
    refine Prog.Ends.mapM (fun rest _ s events => J s events ∧ ∀ c ∈ rest, c ∈ cleaners)
      (fun c rest outcomes s events hr => ?_) (fun _ s events hr => hr.1) cleaners s events ⟨hs, fun _ => id⟩
    rw [runCleaner, Prog.ends_bind, Prog.ends_attempt]
    refine (h c (hr.2 c List.mem_cons_self) s events hr.1).mono fun r t more ht => ?_
    cases r with
    | ok n => exact ⟨ht, fun x hx => hr.2 x (List.mem_cons_of_mem _ hx)⟩
    | error e => exact ⟨note _ _ _ ht, fun x hx => hr.2 x (List.mem_cons_of_mem _ hx)⟩
  refine outcomes.bind (fun outcomes t more ht => ?_) (fun e t more ht => ht)
  split
  · exact ht
  · exact ht

end Cleanup

/-! ## Files -/

open World

variable {w t : World} {events : List Event} {site : Site} {J : World → List Event → Prop} {cutoff : Time.Timestamp}

theorem mem_oldestFirst {α : Type} {time : α → Time.Timestamp} {rows : List α} {r : α} :
    r ∈ oldestFirst time rows ↔ r ∈ rows := by
  simp [oldestFirst]

theorem mem_of_page {α : Type} {endpoint : Endpoint} {time : α → Time.Timestamp} {n : Nat} (rows : World → List α)
    (unstruck : ∀ strikes, rows { w with strikes := strikes } = rows w) {page : List α}
    (h : (w.statement endpoint fun w => (limited n (oldestFirst time (rows w)), w)).1 = .ok page) :
    ∀ x ∈ page, x ∈ rows w := by
  intro x hx
  rcases statement_cases w endpoint fun w => (limited n (oldestFirst time (rows w)), w) with
    ⟨f, strikes, struck, -⟩ | ⟨strikes, reached, -⟩
  · rw [struck] at h
    cases h
  · rw [reached, limited] at h
    dsimp only at h
    split at h
    · cases h
      rw [← unstruck strikes]
      exact mem_oldestFirst.1 (List.mem_of_mem_take hx)
    · cases h

/-- a page holds none but some rows -/
abbrev Within {α : Type} (rows : List α) : Prog.Goal World (List α) := fun r _ _ =>
  ∀ page, r = .ok page → ∀ x ∈ page, x ∈ rows

theorem pageOf_ends {α : Type} {rows : List α} {ask : Time.Timestamp → Nat → Op (List α)} (limit : Int)
    (asked : ∀ utc n, cutoff.toUtc? = some utc → (ask utc n).Ends serve (Within rows) w events) :
    (pageOf cutoff limit ask).Ends serve (Within rows) w events := by
  rw [pageOf]
  split
  · simp [Within]
  · rw [Files.inUtc]
    cases dated : cutoff.toUtc? with
    | none => simp [Within]
    | some utc =>
      rw [LawfulMonad.pure_bind]
      split
      · simp [Within]
      · exact asked utc _ dated

theorem pageOf_files_ends (limit : Int) :
    (pageOf cutoff limit fun utc n => do Prog.ofReply (← Op.ask (.pageFiles (.before utc) n)) : Op (List Entry)).Ends
      serve (Within (w.files.select (.before cutoff))) w events := by
  refine pageOf_ends limit fun utc n dated => ?_
  have means : (FileQuery.before utc).holds = (FileQuery.before cutoff).holds := by
    funext e
    simp only [FileQuery.holds, Time.Timestamp.instant_toUtc? dated]
  rw [Op.ends_ask_bind, Prog.ends_ofReply]
  intro page given
  rw [FileTable.select, ← means]
  exact mem_of_page (fun w => w.files.select (.before utc)) (fun _ => rfl) (Prog.bare_eq_ok.1 given)

/-- **A deletion of a file by the cleanup** does nothing, or removes the content, and then removes the row or puts on
record that it could not. -/
theorem deleteSafely_ends {n : Nat} (h : 0 < n) (e : Entry) :
    ((⟨files site, n, h⟩ : Cleaner service).deleteSafely e).Ends serve (fun _ t more => events <:+ more ∧
      (SameStores w t ∨ ∃ key b, site.location.key e.space e.id = .ok key ∧ w.bucket = some b ∧
        t.bucket = some (b.erase [key]) ∧ (t.files = w.files ∧ .itemNotDeleted e.description ∈ more ∨
          t.files = w.files.remove (.file e.space e.id)))) w events := by
  refine Prog.Ends.and (Prog.ends_suffix _ _ _) ?_
  show (Prog.record (.deleting e.description) >>= fun _ => (Files.delete site e.space e.id).attempt >>= _).Ends _ _ _ _
  rw [Prog.ends_record_bind, Prog.ends_bind, Prog.ends_attempt]
  refine (Files.delete_ends e.space e.id).mono fun r t more ht => ?_
  cases r with
  | error failure =>
    rcases ht with ⟨-, -, same⟩ | ⟨key, b, hkey, hb, ht, ⟨-, hfiles⟩ | ⟨failed, -⟩⟩
    · exact .inl same
    · exact .inr ⟨key, b, hkey, hb, ht, .inl ⟨hfiles, List.mem_cons_self⟩⟩
    · cases failed
  | ok there =>
    have kept : ∀ more : List Event, SameStores w t ∨ ∃ key b, site.location.key e.space e.id = .ok key ∧
        w.bucket = some b ∧ t.bucket = some (b.erase [key]) ∧ (t.files = w.files ∧ .itemNotDeleted e.description ∈ more ∨
          t.files = w.files.remove (.file e.space e.id)) := by
      rcases ht with ⟨_, failed, -⟩ | ⟨key, b, hkey, hb, ht, ⟨⟨_, failed⟩, -⟩ | ⟨-, hfiles⟩⟩
      · cases failed
      · cases failed
      · exact fun _ => .inr ⟨key, b, hkey, hb, ht, .inr hfiles⟩
    cases there with
    | true => exact kept _
    | false => exact kept _

/-- **What reading and deletions of rows' files keep, the cleanup keeps.** -/
theorem cleanup_ends (good : Entry → Prop) (note : ∀ e t events, J t events → J t (e :: events))
    (reads : ∀ c t events, Call.Reads c → J t events → J (serve c t).2 events)
    (rows : ∀ t events, J t events → ∀ e ∈ t.files.rows, good e)
    (delete : ∀ n (h : 0 < n) e t events, good e → J t events →
      ((⟨files site, n, h⟩ : Cleaner service).deleteSafely e).Ends serve (fun _ t events => J t events) t events)
    (size : Option Int) (hw : J w events) :
    (cleanup site size cutoff).Ends serve (fun _ t events => J t events) w events := by
  have only : ∀ {α : Type} {p : Op α}, p.Only Call.Reads → ∀ t events, J t events →
      p.Ends serve (fun _ t events => J t events) t events := fun h t events ht =>
    h.keeps_events reads note ht
  rw [cleanup]
  rcases defaultCleaners_cases site size with ⟨e, failed⟩ | ⟨n, h, made⟩
  · rw [failed]
    exact hw
  · rw [made]
    refine runCleanup_ends note (fun c hc t events ht => ?_) hw
    rcases List.mem_cons.1 hc with rfl | hc
    · exact only (Cleaner.only_execute (only_executions (fun _ => trivial) (fun _ => trivial) (fun _ _ => trivial)) cutoff)
        t events ht
    · rw [List.mem_singleton.1 hc]
      have keeps : (⟨files site, n, h⟩ : Cleaner service).Keeps serve cutoff J good := by
        refine ⟨note, fun t events ht => ?_, fun t events ht => ?_, delete n h⟩
        · exact only ((Files.only_count (fun _ => trivial) _).bind fun _ => Prog.only_pure _) t events ht
        · refine Prog.Ends.and (only (only_fetchFiles (fun _ _ => trivial) cutoff n) t events ht) ?_
          exact (pageOf_files_ends n).mono fun r _ _ fetched page hr e he =>
            rows t events ht e (List.mem_of_mem_filter (fetched page hr e he))
      exact keeps.execute_ends ht

end Depot.Retention
