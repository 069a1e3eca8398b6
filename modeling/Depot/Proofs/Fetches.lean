/-
How many pages a cleaner fetches.

A cleaner fetches each page by one call, and asks for nothing in this way otherwise (`Cleaner.Fetches`). So a run that
ends well made just so many of these calls as it had counted pages (`Cleaner.Fetches.execute_calls`), whatever it found
on them and whatever became of the items.
-/
import Depot.Proofs.Stocks

namespace Depot.Retention

/-- a cleaner fetches a page by one call of a kind, and makes no other call of it -/
structure Cleaner.Fetches {I : Interface} {σ : Type} (c : Cleaner I) (serve : (c : I.Call) → σ → I.Reply c × σ)
    (kind : I.Call → Bool) (cutoff : Time.Timestamp) : Prop where
  apart : c.items.Apart (kind · = false)
  fetch : ∀ s, (c.items.fetchPage cutoff c.pageSize).calls serve kind s = 1

namespace Cleaner.Fetches

variable {I : Interface} {σ : Type} {serve : (c : I.Call) → σ → I.Reply c × σ} {kind : I.Call → Bool} {c : Cleaner I}
  {cutoff : Time.Timestamp} {s : σ} {n : Nat} {events : List Event}

theorem deletePage_ends (h : c.Fetches serve kind cutoff) (count : Nat) :
    (c.deletePage cutoff count).Ends (Prog.tally serve kind) (fun r t _ => (∃ m, r = .ok m) → t.2 = n + 1) (s, n)
      events := by
  have fetched := (Prog.ends_of (c.items.fetchPage cutoff c.pageSize) (fun _ _ _ => trivial) s events).counted (n := n)
    (h.fetch s)
  unfold deletePage
  apply fetched.bind
  · intro page t events ⟨_, number⟩
    have each : (c.deleteEach count page).Only (kind · = false) :=
      Prog.Only.foldlM (fun _ item => (only_deleteSafely h.apart item).bind fun _ => Prog.only_pure _) page count
    refine ((Prog.ends_of (c.deleteEach count page) (fun _ _ _ => trivial) t.1 events).counted (n := t.2)
      (each.calls_eq_zero t.1)).mono ?_
    intro r u _ ⟨_, same⟩ _
    exact same.trans number
  · intro e t events _ ⟨_, failed⟩
    cases failed

theorem deletePages_ends (h : c.Fetches serve kind cutoff) (pages count : Nat) :
    (c.deletePages cutoff pages count).Ends (Prog.tally serve kind) (fun r t _ => (∃ m, r = .ok m) → t.2 = n + pages)
      (s, n) events := by
  induction pages generalizing s n events count with
  | zero => exact fun _ => rfl
  | succ pages ih =>
    unfold deletePages
    apply (h.deletePage_ends count).bind
    · intro count t events number
      refine (ih (s := t.1) (n := t.2) count).mono ?_
      intro r u _ rest done
      rw [rest done, number ⟨count, rfl⟩]
      omega
    · rintro e t events _ ⟨_, failed⟩
      cases failed

/-- **A run that ends well fetched all its pages, and no more.** -/
theorem execute_calls (h : c.Fetches serve kind cutoff) {total pages : Int} (counted : ∀ events,
    (c.items.count cutoff).Ends serve (fun r _ _ => ∀ m, r = .ok m → m = total) s events)
    (few : c.pages total = .ok pages)
    (done : (c.execute cutoff).Ends serve (fun r _ _ => ∃ m, r = .ok m) s events) :
    (c.execute cutoff).calls serve kind s = pages.toNat := by
  have tallied : (c.execute cutoff).Ends (Prog.tally serve kind) (fun r t _ => (∃ m, r = .ok m) → t.2 = 0 + pages.toNat)
      (s, 0) events := by
    unfold execute
    rw [Prog.ends_record_bind]
    apply ((counted _).counted ((h.apart.count cutoff).calls_eq_zero s)).bind
    · intro m t events ⟨same, number⟩
      rw [same m rfl, few, Prog.ofExcept_ok_bind, Prog.ends_record_bind]
      apply (h.deletePages_ends (s := t.1) (n := t.2) pages.toNat 0).bind
      · intro deleted u events all _
        exact (all ⟨deleted, rfl⟩).trans (congrArg (· + pages.toNat) number)
      · intro e u events _ ⟨_, failed⟩
        cases failed
    · intro e t events _ ⟨_, failed⟩
      cases failed
  rw [Prog.ends_tally, Prog.ends_iff] at tallied
  rw [Prog.ends_iff] at done
  have number := tallied done
  simpa using number

end Cleaner.Fetches

/-! ## Kinds -/

open World

/-- the calls by which pages of a kind are fetched -/
def Kind.fetches : Kind → Call → Bool
  | .executions, .pageExecutions .. => true
  | .files, .pageFiles .. => true
  | _, _ => false

variable {w : World} {site : Site} {cutoff utc : Time.Timestamp} {n : Nat} {events : List Event}

theorem Kind.cleaner_fetches (k : Kind) (site : Site) (dated : cutoff.toUtc? = some utc) (h : 0 < n) :
    (k.cleaner site n h).Fetches serve k.fetches cutoff := by
  cases k with
  | executions =>
    refine ⟨apart_executions (fun _ => rfl) fun _ => rfl, fun w => ?_⟩
    show (pageOf cutoff n fun utc n => do Prog.ofReply (← Op.ask (.pageExecutions utc n)) : Op (List Execution)).calls
      serve _ w = 1
    rw [pageOf_eq dated h]
    show 1 + (Prog.ofReply _ : Op (List Execution)).calls serve _ _ = 1
    rw [(Prog.only_ofReply _).calls_eq_zero]
  | files =>
    refine ⟨apart_files (fun _ => rfl) (fun _ => rfl) fun _ => rfl, fun w => ?_⟩
    show (pageOf cutoff n fun utc n => do Prog.ofReply (← Op.ask (.pageFiles (.before utc) n)) : Op (List Entry)).calls
      serve _ w = 1
    rw [pageOf_eq dated h]
    show 1 + (Prog.ofReply _ : Op (List Entry)).calls serve _ _ = 1
    rw [(Prog.only_ofReply _).calls_eq_zero]

theorem Kind.only_other {k other : Kind} (differ : k ≠ other) (site : Site) (h : 0 < n) :
    (k.cleaner site n h).items.Only (other.fetches · = false) := by
  cases k with
  | executions =>
    cases other with
    | executions => exact absurd rfl differ
    | files => exact only_executions (fun _ => rfl) (fun _ => rfl) fun _ _ => rfl
  | files =>
    cases other with
    | executions => exact only_files (fun _ => rfl) (fun _ => rfl) (fun _ => rfl) fun _ _ => rfl
    | files => exact absurd rfl differ

/-- **Without faults, a cleaner fetches the pages that the expired records of its kind fill,** and none of another. -/
theorem Kind.execute_calls (k other : Kind) (calm : Calm w) (dated : cutoff.toUtc? = some utc) (h : 0 < n)
    (short : n < 2 ^ 63) (few : k.expired cutoff w < 2 ^ 53)
    (done : ((k.cleaner site n h).execute cutoff).Ends serve (fun r _ _ => ∃ m, r = .ok m) w events) :
    ((k.cleaner site n h).execute cutoff).calls serve other.fetches w =
      if k = other then k.expired cutoff w ⌈/⌉ n else 0 := by
  split
  case isTrue same =>
    subst same
    have counted : ∀ events, ((k.cleaner site n h).items.count cutoff).Ends serve (fun r _ _ =>
        ∀ m, r = .ok m → m = (k.expired cutoff w : Int)) w events := by
      intro events
      cases k with
      | executions =>
        refine (unstruck_count_executions calm.strikes dated).mono ?_
        rintro r t more ⟨rfl, -, -⟩ m ⟨⟩
        rfl
      | files =>
        refine (unstruck_count_files calm.strikes dated).mono ?_
        rintro r t more ⟨rfl, -, -⟩ m ⟨⟩
        rfl
    exact (k.cleaner_fetches site dated h).execute_calls counted (pages_eq few short) done
  case isFalse differ =>
    exact (Cleaner.only_execute (Kind.only_other differ site h) cutoff).calls_eq_zero w

end Depot.Retention
