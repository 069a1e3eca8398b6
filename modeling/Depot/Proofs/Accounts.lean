/-
What a run of a cleaner accounts for, whatever fails on its way.

A cleaner counts the items of which it is told that they were deleted. Where each of its parts keeps account of what is gone
(`Cleaner.Accounts`), a run that ends well gives the number of items that are gone, and a run that fails leaves some number
of them gone (`Accounts.execute_ends`). A single item never breaks a run off. That is left to the count of the items, its
division into pages, and the fetch of a page, and then the run leaves what the pages before had left (`execute_breaksOff`).
-/
import Depot.Proofs.Run
import Depot.Retention.Cleaner

namespace Depot.Retention.Cleaner

variable {I : Interface} {σ : Type} {serve : (c : I.Call) → σ → I.Reply c × σ} {c : Cleaner I} {cutoff : Time.Timestamp}
  {J : Nat → σ → Prop} {good : c.items.Item → Prop} {s t : σ} {events : List Event}

/-! ## Accounts -/

/-- the number of items of which an outcome says that they were deleted -/
def said : Except Failure Bool → Nat
  | .ok true => 1
  | _ => 0

def Describes (c : Cleaner I) : Prop :=
  ∀ item, ∃ text, c.items.describe item = pure text

/-- the parts of a cleaner keep account of the number of items that are gone, where only good ones are fetched -/
structure Accounts (c : Cleaner I) (serve : (c : I.Call) → σ → I.Reply c × σ) (cutoff : Time.Timestamp)
    (J : Nat → σ → Prop) (good : c.items.Item → Prop) : Prop where
  count : ∀ n s events, J n s → (c.items.count cutoff).Ends serve (fun _ t _ => J n t) s events
  fetch : ∀ n s events, J n s → (c.items.fetchPage cutoff c.pageSize).Ends serve (fun r t _ =>
    J n t ∧ ∀ page, r = .ok page → ∀ item ∈ page, good item) s events
  delete : ∀ item n s events, good item → J n s →
    (c.items.deleteOne item).Ends serve (fun r t _ => J (n + said r) t) s events

/-- the count of a run and its first pages -/
def begin (c : Cleaner I) (cutoff : Time.Timestamp) (pages : Nat) : Prog I Nat := do
  let _ ← c.items.count cutoff
  c.deletePages cutoff pages 0

theorem deleteSafely_ends (describes : c.Describes) {item : c.items.Item} {Q : Except Failure Bool → σ → Prop}
    (h : ∀ events, (c.items.deleteOne item).Ends serve (fun r t _ => Q r t) s events) :
    (c.deleteSafely item).Ends serve (fun r t _ => ∃ deleted, r = .ok deleted ∧ ∃ r', said r' = deleted.toNat ∧ Q r' t) s
      events := by
  obtain ⟨text, described⟩ := describes item
  rw [deleteSafely, described, LawfulMonad.pure_bind, Prog.ends_record_bind, Prog.ends_bind, Prog.ends_attempt]
  refine (h _).mono fun r t more hr => ?_
  cases r with
  | error e => exact ⟨false, rfl, .error e, rfl, hr⟩
  | ok deleted =>
    cases deleted with
    | true => exact ⟨true, rfl, .ok true, rfl, hr⟩
    | false => exact ⟨false, rfl, .ok false, rfl, hr⟩

theorem deleteEach_returns (describes : c.Describes) (k : Nat) (page : List c.items.Item) :
    (c.deleteEach k page).Ends serve (fun r _ _ => ∃ m, r = .ok m) s events := by
  refine Prog.Ends.foldlM (fun _ _ _ _ => True) (fun item rest k s events _ => ?_) (fun k _ _ _ => ⟨k, rfl⟩) page k s
    events trivial
  refine (deleteSafely_ends describes (Q := fun _ _ => True) fun _ => Prog.ends_of _ (fun _ _ _ => trivial) _ _).bind
    (fun _ _ _ _ => trivial) fun e t more ht => ?_
  obtain ⟨_, failed, -⟩ := ht
  cases failed

namespace Accounts

theorem deleteEach_ends (h : c.Accounts serve cutoff J good) (describes : c.Describes) (k : Nat) {n : Nat} (hs : J n s)
    {page : List c.items.Item} (hpage : ∀ item ∈ page, good item) :
    (c.deleteEach k page).Ends serve (fun r t _ => ∃ m, r = .ok (k + m) ∧ J (n + m) t) s events := by
  refine Prog.Ends.foldlM (fun rest k' t _ => (∀ item ∈ rest, good item) ∧ ∃ m, k' = k + m ∧ J (n + m) t)
    (fun item rest k' t events ht => ?_) (fun k' t events ht => ?_) page k s events ⟨hpage, 0, rfl, hs⟩
  · obtain ⟨hrest, m, rfl, ht⟩ := ht
    refine (deleteSafely_ends describes fun events => h.delete item (n + m) t events (hrest item List.mem_cons_self)
      ht).bind (fun deleted u more hu => ?_) (fun e u more hu => ?_)
    · obtain ⟨_, ⟨⟩, r', number, hu⟩ := hu
      refine ⟨fun x hx => hrest x (List.mem_cons_of_mem _ hx), m + deleted.toNat, ?_, ?_⟩
      · cases deleted <;> rfl
      · rwa [← number, ← Nat.add_assoc]
    · obtain ⟨_, failed, -⟩ := hu
      cases failed
  · obtain ⟨-, m, rfl, ht⟩ := ht
    exact ⟨m, rfl, ht⟩

/-- what is known of some pages, after which a number of items are gone -/
abbrev After (J : Nat → σ → Prop) (k n : Nat) : Prog.Goal σ Nat := fun r t _ =>
  ∃ m, J (n + m) t ∧ ∀ k', r = .ok k' → k' = k + m

theorem deletePage_ends (h : c.Accounts serve cutoff J good) (describes : c.Describes) (k : Nat) {n : Nat} (hs : J n s) :
    (c.deletePage cutoff k).Ends serve (After J k n) s events := by
  refine (h.fetch n s events hs).bind (fun page t more ht => ?_)
    (fun e t more ht => ⟨0, ht.1, fun _ failed => by cases failed⟩)
  refine (h.deleteEach_ends describes k ht.1 (ht.2 page rfl)).mono fun r u more hu => ?_
  obtain ⟨m, rfl, hu⟩ := hu
  exact ⟨m, hu, fun k' same => (Except.ok.inj same).symm⟩

theorem deletePages_ends (h : c.Accounts serve cutoff J good) (describes : c.Describes) (pages k : Nat) {n : Nat}
    (hs : J n s) : (c.deletePages cutoff pages k).Ends serve (After J k n) s events := by
  induction pages generalizing k n s events with
  | zero => exact ⟨0, hs, fun k' same => (Except.ok.inj same).symm⟩
  | succ pages ih =>
    refine (h.deletePage_ends describes k hs).bind (fun k' t more ht => ?_) (fun e t more ht => ?_)
    · obtain ⟨m, ht, number⟩ := ht
      obtain rfl := number k' rfl
      refine (ih (k + m) ht).mono fun r u more hu => ?_
      obtain ⟨m', hu, number'⟩ := hu
      exact ⟨m + m', by rwa [← Nat.add_assoc], fun k' same => (number' k' same).trans (Nat.add_assoc k m m')⟩
    · obtain ⟨m, ht, -⟩ := ht
      exact ⟨m, ht, fun _ failed => by cases failed⟩

/-- **A run that ends well gives the number of items that are gone,** and any other leaves a number of them gone. -/
theorem execute_ends (h : c.Accounts serve cutoff J good) (describes : c.Describes) (hs : J 0 s) :
    (c.execute cutoff).Ends serve (fun r t _ => ∃ n, J n t ∧ ∀ m, r = .ok m → m = n) s events := by
  rw [execute, Prog.ends_record_bind]
  refine (h.count 0 s _ hs).bind (fun total t more ht => ?_) (fun e t more ht => ⟨0, ht, fun _ failed => by cases failed⟩)
  cases c.pages total with
  | error e => exact ⟨0, ht, fun _ failed => by cases failed⟩
  | ok pages =>
    rw [Prog.ofExcept_ok_bind, Prog.ends_record_bind]
    refine (h.deletePages_ends describes _ 0 ht).bind (fun k u more hu => ?_) (fun e u more hu => ?_)
    · obtain ⟨m, hu, number⟩ := hu
      refine ⟨m, by rwa [Nat.zero_add] at hu, fun k' same => ?_⟩
      rw [← Except.ok.inj same, number k rfl, Nat.zero_add]
    · obtain ⟨m, hu, -⟩ := hu
      exact ⟨m, by rwa [Nat.zero_add] at hu, fun _ failed => by cases failed⟩

/-- what the first pages give is the number of items that are gone after them -/
theorem begin_ends (h : c.Accounts serve cutoff J good) (describes : c.Describes) (hs : J 0 s) (pages : Nat) :
    (c.begin cutoff pages).Ends serve (fun r t _ => ∃ n, J n t ∧ ∀ m, r = .ok m → m = n) s events := by
  refine (h.count 0 s _ hs).bind (fun total t more ht => ?_) (fun e t more ht => ⟨0, ht, fun _ failed => by cases failed⟩)
  refine (h.deletePages_ends describes pages 0 ht).mono fun r u _ hu => ?_
  obtain ⟨m, hu, number⟩ := hu
  exact ⟨m, by rwa [Nat.zero_add] at hu, fun k same => (number k same).trans (Nat.zero_add m)⟩

end Accounts

/-! ## Runs that break off -/

/-- a run from `s` fails with `e` and leaves `t`: its items were not counted, or fill more pages than can be counted, or a
page was not fetched after some others were done -/
inductive BreaksOff (c : Cleaner I) (serve : (c : I.Call) → σ → I.Reply c × σ) (cutoff : Time.Timestamp) (s : σ)
    (e : Failure) (t : σ) : Prop
  | counting (h : (c.items.count cutoff).Gives serve s (.error e) t)
  | dividing (total : Int) (h : (c.items.count cutoff).Gives serve s (.ok total) t) (divided : c.pages total = .error e)
  | fetching (total pages : Int) (u v : σ) (m j : Nat) (h : (c.items.count cutoff).Gives serve s (.ok total) u)
    (divided : c.pages total = .ok pages) (early : (j : Int) < pages) (before : (c.begin cutoff j).Gives serve s (.ok m) v)
    (failed : (c.items.fetchPage cutoff c.pageSize).Gives serve v (.error e) t)

/-- some pages fail just where the fetch of one does, after those before it -/
theorem deletePages_fails (describes : c.Describes) {e : Failure} (pages k : Nat)
    (h : (c.deletePages cutoff pages k).Gives serve s (.error e) t) :
    ∃ j < pages, ∃ m u, (c.deletePages cutoff j k).Gives serve s (.ok m) u ∧
      (c.items.fetchPage cutoff c.pageSize).Gives serve u (.error e) t := by
  induction pages generalizing k s with
  | zero => cases h.1
  | succ pages ih =>
    rcases Prog.gives_bind.1 h with ⟨k', v, first, rest⟩ | ⟨_, ⟨⟩, first⟩
    · obtain ⟨j, early, m, u, before, failed⟩ := ih k' rest
      exact ⟨j + 1, Nat.succ_lt_succ early, m, u, Prog.gives_bind.2 (.inl ⟨k', v, first, before⟩), failed⟩
    · rcases Prog.gives_bind.1 first with ⟨page, v, -, each⟩ | ⟨_, ⟨⟩, failed⟩
      · have returns : (c.deleteEach k page).Ends serve (fun r _ _ => ∃ m, r = .ok m) v [] :=
          deleteEach_returns describes k page
        obtain ⟨m, returned⟩ := returns.of_gives each
        cases returned
      · exact ⟨0, Nat.succ_pos pages, k, s, ⟨rfl, rfl⟩, failed⟩

/-- **A run fails only where the count, its division or a page does,** and then it leaves what the pages before left. -/
theorem execute_breaksOff (describes : c.Describes) {e : Failure}
    (h : (c.execute cutoff).Gives serve s (.error e) t) : c.BreaksOff serve cutoff s e t := by
  rw [execute, Prog.gives_record_bind] at h
  rcases Prog.gives_bind.1 h with ⟨total, u, counted, rest⟩ | ⟨_, ⟨⟩, failed⟩
  · cases divided : c.pages total with
    | error e' =>
      rw [divided] at rest
      obtain ⟨⟨⟩, rfl⟩ := rest
      exact .dividing total counted divided
    | ok pages =>
      rw [divided, Prog.ofExcept_ok_bind, Prog.gives_record_bind] at rest
      rcases Prog.gives_bind.1 rest with ⟨k, v, -, last⟩ | ⟨_, ⟨⟩, failed⟩
      · cases last.1
      · obtain ⟨j, early, m, v, before, fetch⟩ := deletePages_fails describes pages.toNat 0 failed
        exact .fetching total pages u v m j counted divided (by omega)
          (Prog.gives_bind.2 (.inl ⟨total, u, counted, before⟩)) fetch
  · exact .counting failed

end Depot.Retention.Cleaner
