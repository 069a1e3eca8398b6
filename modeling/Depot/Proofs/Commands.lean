/-
How the cleanup command ends, whatever numbers it is given and whatever its cleaners meet with.

Numbers that cannot be read, a negative number of days and pages without an item are refused before anything is done
(`Unfit`). Otherwise the command works out the cutoff. A period that reaches back behind the start of the calendar has
none, and this is not reported as a failure of the command. With a cutoff, the cleaners run in turn, whatever befalls them,
and the command fails exactly if one of them failed.
- `cleanup_reported_iff`: all this of any two numbers, from any state.
-/
import Depot.Command.Manage
import Depot.Proofs.Cleanups
import Depot.Proofs.Rounds

namespace Depot.Command

open Text World Retention

variable {site : Site} {w : World} {days size : Int} {cutoff : Time.Timestamp}

/-! ## Cutoffs -/

theorem day_eq : (Time.day : Int) = 86400000000 := rfl

/-- a period that the calendar has room for leads to a cutoff -/
theorem daysBefore_near {now : Time.Timestamp} (past : 0 ≤ days) (near : days * Time.day ≤ now.wall) :
    ∃ cutoff, now.add? (-(days * Time.day)) = some cutoff ∧ daysBefore now days = .ok cutoff := by
  have wall : (now.wall : Int) < 3652059 * Time.day := by exact_mod_cast now.wall_lt
  rw [day_eq] at near wall
  have word : ¬maxWord < days := by
    unfold maxWord
    omega
  have period : ¬maxDays < days := by
    unfold maxDays
    omega
  have within : 0 ≤ (now.wall : Int) + -(days * Time.day) ∧ (now.wall : Int) + -(days * Time.day) < Time.limit := by
    have limit : (Time.limit : Int) = 3652059 * 86400000000 := rfl
    rw [day_eq, limit]
    omega
  have dated : now.add? (-(days * Time.day)) = some _ := dif_pos within
  refine ⟨_, dated, ?_⟩
  unfold daysBefore
  rw [if_neg word, if_neg period, dated]

/-- a period that reaches back behind the calendar does not, and nobody accounts for that -/
theorem daysBefore_far {now : Time.Timestamp} (far : now.wall < days * Time.day) :
    ∃ f, daysBefore now days = .error (.fault f) := by
  unfold daysBefore
  split
  · exact ⟨_, rfl⟩
  · split
    · exact ⟨_, rfl⟩
    · have undated : now.add? (-(days * Time.day)) = none := by
        refine dif_neg ?_
        intro within
        omega
      rw [undated]
      exact ⟨_, rfl⟩

/-! ## Runs -/

/-- the cleanup says what it is about to do, which takes time and leaves all records -/
def started (w : World) (cutoff : Time.Timestamp) (days : Int) : World :=
  { w with
    clock := (w.clock.add? w.tick).getD w.clock
    output := w.output ++
      ("Deleting records older than " ++ cutoff.spaced ++ " (" ++ Numeral.ofInt days ++ " days)" ++ "\n") }

theorem writeCounts_returns (colored : Bool) (counts : List (String × Nat)) (w : World) (events : List Event) :
    (counts.forM fun (name, n) => writeSuccess colored ("Deleted " ++ Numeral.ofNat n ++ " " ++ name) : Op Unit).Ends
      serve (fun r t _ => r = .ok () ∧ SameRecords w t) w events := by
  induction counts generalizing w events with
  | nil => exact ⟨rfl, SameRecords.refl w⟩
  | cons c counts ih =>
    refine (ih _ events).mono ?_
    intro r t _ ⟨done, same⟩
    exact ⟨done, ⟨same.bucket, same.files⟩, same.executions⟩

theorem expire_undated (site : Site) {f : Fault} (undated : daysBefore w.clock days = .error (.fault f)) (colored : Bool)
    (size : Int) (events : List Event) :
    (expire site colored days size).Ends serve (fun r t _ => r = .error (.fault f) ∧ SameRecords w t) w events := by
  unfold expire
  rw [Op.ends_ask_bind]
  show (Prog.ofExcept (daysBefore w.clock days) >>= _).Ends _ _ _ _
  rw [undated]
  exact ⟨rfl, ⟨rfl, rfl⟩, rfl⟩

/-- what the command comes to, by the turns of its cleaners -/
structure Finished (turns : List (Turn World)) (s : World) (r : Except Failure Unit) (t : World) : Prop where
  records : SameRecords (leftBy s turns) t
  outcome : r = if turns.any (·.failed) then
    .error (.command (.cleanup ((turns.filter (·.failed)).map (·.name)))) else .ok ()

/-- the cleaners run in turn, and that some of them failed is a failure of the command -/
theorem reporting_turns (cleaners : List (Cleaner service)) (cutoff : Time.Timestamp) (s : World) (events : List Event) :
    let turns := inTurn serve cutoff cleaners s
    (reporting isCleanup (runCleanup cleaners cutoff)).Ends serve (fun r t _ => t = leftBy s turns ∧
      (turns.any (·.failed) = true ∧ r = .error (.command (.cleanup ((turns.filter (·.failed)).map (·.name)))) ∨
        turns.any (·.failed) = false ∧ ∃ counts, r = .ok counts)) s events := by
  intro turns
  apply (runCleanup_outcome serve cleaners cutoff s events).rescue
  · intro counts t more ⟨left, _, outcome⟩
    refine ⟨left, .inr ⟨?_, counts, rfl⟩⟩
    rw [← Bool.not_eq_true]
    intro failed
    rw [if_pos failed] at outcome
    cases outcome
  · intro e t more ⟨left, _, outcome⟩
    split at outcome
    case isTrue failed =>
      obtain rfl := Except.error.inj outcome
      exact ⟨left, .inl ⟨failed, rfl⟩⟩
    case isFalse => cases outcome

theorem Finished.reported {turns : List (Turn World)} {s t : World} {r : Except Failure Unit}
    (finished : Finished turns s r t) {e : Failure} (failed : r = .error e) : isReported e = true := by
  have outcome := failed.symm.trans finished.outcome
  split at outcome
  · obtain rfl := Except.error.inj outcome
    rfl
  · cases outcome

/-- **With a cutoff the cleaners run in turn,** and those that fail are reported. -/
theorem expire_finished {cleaners : List (Cleaner service)} (dated : daysBefore w.clock days = .ok cutoff)
    (fit : defaultCleaners site (some size) = .ok cleaners) (colored : Bool) (events : List Event) :
    (expire site colored days size).Ends serve (fun r t _ =>
      Finished (inTurn serve cutoff cleaners (started w cutoff days)) (started w cutoff days) r t) w events := by
  unfold expire
  rw [Op.ends_ask_bind]
  show (Prog.ofExcept (daysBefore w.clock days) >>= _).Ends _ _ _ _
  rw [dated, Prog.ofExcept_ok_bind]
  show (reporting isCleanup (Retention.cleanup site (some size) cutoff) >>= _).Ends serve _ (started w cutoff days) events
  unfold Retention.cleanup
  rw [fit]
  apply (reporting_turns cleaners cutoff (started w cutoff days) events).bind
  · intro counts t more ⟨left, ended⟩
    obtain ⟨-, failed⟩ | ⟨fine, -⟩ := ended
    · cases failed
    · refine (writeCounts_returns colored counts t more).mono ?_
      intro r u _ ⟨done, same⟩
      exact ⟨left ▸ same, done.trans (if_neg (Bool.eq_false_iff.1 fine)).symm⟩
  · intro e t more ⟨left, ended⟩
    obtain ⟨failed, same⟩ | ⟨-, _, fine⟩ := ended
    · exact ⟨left ▸ SameRecords.refl t, (Except.error.inj same) ▸ (if_pos failed).symm⟩
    · cases fine

/-! ## Numbers that are refused -/

/-- numbers that the command does not take: they cannot be read, or they are too small -/
def Unfit (days size : Int) : Prop :=
  ¬(Numeral.IsShort days ∧ Numeral.IsShort size) ∨ days < 0 ∨ size < 1

section Settings

variable (period : site.retentionDays.isSome = true) (page : site.pageSize.isSome = true)
include period page

/-- a number that is too long to be read is refused before any number is checked -/
theorem call_long (long : ¬(Numeral.IsShort days ∧ Numeral.IsShort size)) :
    ∃ m, call site "cleanup_expired" (integers days size) = .fail (.usage (.unreadable m)) := by
  obtain ⟨m, unread⟩ := request_integers_long long
  obtain ⟨period, hperiod⟩ := Option.isSome_iff_exists.1 period
  obtain ⟨page, hpage⟩ := Option.isSome_iff_exists.1 page
  have name : Name.ofText? "cleanup_expired" = some .cleanup := by decide
  refine ⟨m, ?_⟩
  unfold call
  rw [name]
  dsimp only
  rw [unread]
  unfold Name.prepare
  dsimp only
  rw [hperiod, hpage]
  rfl

/-- **Unfit numbers are refused** before anything is done. -/
theorem call_unfit (unfit : Unfit days size) :
    ∃ u, call site "cleanup_expired" (integers days size) = .fail (.usage u) := by
  by_cases short : Numeral.IsShort days ∧ Numeral.IsShort size
  · rw [call_orders (orders_integers period page short.1 short.2)]
    by_cases negative : days < 0
    · rw [checkDays, if_pos negative]
      exact ⟨_, rfl⟩
    · have small : size < 1 := (unfit.resolve_left (not_not_intro short)).resolve_left negative
      rw [checkDays, if_neg negative, Prog.ofExcept_ok_bind, checkSize, if_pos small]
      exact ⟨_, rfl⟩
  · obtain ⟨m, refused⟩ := call_long period page short
    exact ⟨_, refused⟩

theorem call_fit (fit : ¬Unfit days size) :
    call site "cleanup_expired" (integers days size) = expire site false days size := by
  obtain ⟨⟨hdays, hsize⟩, past, pos⟩ : (Numeral.IsShort days ∧ Numeral.IsShort size) ∧ ¬days < 0 ∧ ¬size < 1 := by
    simpa [Unfit, not_or] using fit
  rw [call_orders (orders_integers period page hdays hsize), checkDays, if_neg past, Prog.ofExcept_ok_bind, checkSize,
    if_neg pos, Prog.ofExcept_ok_bind]
  rfl

/-! ## The command -/

theorem cleaned_unfit (unfit : Unfit days size) (w : World) :
    (∃ u, (cleaned site (integers days size) w).outcome = .error (.usage u)) ∧
      SameRecords w (cleaned site (integers days size) w).state := by
  obtain ⟨u, refused⟩ := call_unfit period page unfit
  unfold cleaned
  rw [refused]
  exact ⟨⟨u, rfl⟩, SameRecords.refl w⟩

theorem cleaned_far (fit : ¬Unfit days size) (far : w.clock.wall < days * Time.day) :
    (∃ f, daysBefore w.clock days = .error (.fault f) ∧
        (cleaned site (integers days size) w).outcome = .error (.fault f)) ∧
      SameRecords w (cleaned site (integers days size) w).state := by
  obtain ⟨f, undated⟩ := daysBefore_far far
  have ends := expire_undated site undated false size []
  rw [← call_fit period page fit, Prog.ends_iff] at ends
  exact ⟨⟨f, undated, ends.1⟩, ends.2⟩

theorem cleaned_near (fit : ¬Unfit days size) (near : days * Time.day ≤ w.clock.wall) :
    ∃ cutoff cleaners, w.clock.add? (-(days * Time.day)) = some cutoff ∧
      defaultCleaners site (some size) = .ok cleaners ∧
      Finished (inTurn serve cutoff cleaners (started w cutoff days)) (started w cutoff days)
        (cleaned site (integers days size) w).outcome (cleaned site (integers days size) w).state := by
  obtain ⟨past, pos⟩ : 0 ≤ days ∧ 1 ≤ size := by
    simp only [Unfit, not_or] at fit
    omega
  obtain ⟨cutoff, added, dated⟩ := daysBefore_near past near
  obtain ⟨n, rfl⟩ := Int.eq_ofNat_of_zero_le (show 0 ≤ size by omega)
  have cleaners := defaultCleaners_eq site (show 0 < n by omega)
  have ends := expire_finished dated cleaners false []
  rw [← call_fit period page fit, Prog.ends_iff] at ends
  exact ⟨cutoff, _, added, cleaners, ends⟩

end Settings

/-- **The command reports its failures, unless the period reaches back behind the calendar.** Unfit numbers are refused
and no record is touched. Otherwise the cleaners run in turn, and the command fails exactly if one of them failed; only
where there is no cutoff it ends before, with a failure that is no report of a command. -/
theorem cleanup_reported_iff (site : Site) (period : site.retentionDays.isSome = true)
    (page : site.pageSize.isSome = true) (days size : Int) (w : World) :
    let run := cleaned site (integers days size) w
    ((∀ e, run.outcome = .error e → isReported e = true) ↔ Unfit days size ∨ days * Time.day ≤ w.clock.wall) ∧
    (Unfit days size → (∃ u, run.outcome = .error (.usage u)) ∧ SameRecords w run.state) ∧
    (¬Unfit days size → days * Time.day ≤ w.clock.wall →
      ∃ cutoff cleaners, w.clock.add? (-(days * Time.day)) = some cutoff ∧
        defaultCleaners site (some size) = .ok cleaners ∧
        Finished (inTurn serve cutoff cleaners (started w cutoff days)) (started w cutoff days) run.outcome run.state) ∧
    (¬Unfit days size → w.clock.wall < days * Time.day →
      (∃ f, daysBefore w.clock days = .error (.fault f) ∧ run.outcome = .error (.fault f)) ∧
        SameRecords w run.state) := by
  intro run
  have refused (unfit : Unfit days size) := cleaned_unfit period page unfit w
  have finished (fit : ¬Unfit days size) (near : days * Time.day ≤ w.clock.wall) := cleaned_near period page fit near
  have undated (fit : ¬Unfit days size) (far : w.clock.wall < days * Time.day) := cleaned_far period page fit far
  refine ⟨?_, refused, finished, undated⟩
  constructor
  · intro reported
    by_contra neither
    rw [not_or, Int.not_le] at neither
    obtain ⟨⟨f, -, failed⟩, -⟩ := undated neither.1 neither.2
    cases reported _ failed
  · intro fits e failed
    by_cases unfit : Unfit days size
    · obtain ⟨⟨u, usage⟩, -⟩ := refused unfit
      obtain rfl := Except.error.inj (usage.symm.trans failed)
      rfl
    · obtain ⟨cutoff, cleaners, -, -, done⟩ := finished unfit (fits.resolve_left unfit)
      exact done.reported failed

/-- records are to be kept for longer than the calendar reaches back -/
theorem cleanup_unreported_longAgo :
    let run := cleaned (.standard .top) (integers 1000000 100) .fresh
    ¬(∀ e, run.outcome = .error e → isReported e = true) ∧ SameRecords .fresh run.state := by
  intro run
  have fit : ¬Unfit 1000000 100 := by
    unfold Unfit
    decide
  have far : (World.fresh.clock.wall : Int) < 1000000 * Time.day := by decide +kernel
  obtain ⟨reported, -, -, undated⟩ := cleanup_reported_iff (.standard .top) rfl rfl 1000000 100 .fresh
  refine ⟨?_, (undated fit far).2⟩
  rw [reported, not_or]
  exact ⟨fit, Int.not_le.2 far⟩

end Depot.Command
