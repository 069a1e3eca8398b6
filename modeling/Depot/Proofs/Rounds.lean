/-
A cleanup: cleaners one after another, and what is reported of them.

`inTurn` executes cleaners in their order, each of them once and on the state that the one before left, whether that one
failed or not. `ends_cleaners` says that this is what a cleanup does with its cleaners, over any interface and any state
that answers the calls; so a state that keeps the calls made to it shows that no cleaner is executed twice.

What is reported of the round follows: the numbers of deleted items by name if nobody failed, and the names of all who
failed otherwise (`runCleanup_in_turn`).
-/
import Mathlib.Data.List.Induction
import Depot.Proofs.Run
import Depot.Retention.Cleanup
import Depot.Retention.Shelf

namespace Depot

namespace Retention

variable {I : Interface} {σ : Type} {serve : (c : I.Call) → σ → I.Reply c × σ} {cutoff : Time.Timestamp} {s : σ}

/-! ## Rounds -/

structure Turn (σ : Type) where
  name : String
  run : Prog.Run σ Nat

namespace Turn

def of (serve : (c : I.Call) → σ → I.Reply c × σ) (cutoff : Time.Timestamp) (c : Cleaner I) (s : σ) : Turn σ :=
  ⟨c.name, (c.execute cutoff).run serve s⟩

def failed (t : Turn σ) : Bool :=
  !t.run.outcome.isOk

/-- what is on record of a turn, the last event first: a failure is added to what the cleaner did -/
def events (t : Turn σ) : List Event :=
  if t.failed then .cleanupFailed t.name :: t.run.record else t.run.record

def outcome (t : Turn σ) : Outcome :=
  (t.name, t.run.outcome)

end Turn

/-- cleaners executed one after another, each on the state that the one before left -/
def inTurn (serve : (c : I.Call) → σ → I.Reply c × σ) (cutoff : Time.Timestamp) : List (Cleaner I) → σ → List (Turn σ)
  | [], _ => []
  | c :: rest, s =>
    let turn := Turn.of serve cutoff c s
    turn :: inTurn serve cutoff rest turn.run.state

/-- the state that turns leave -/
def leftBy (s : σ) (turns : List (Turn σ)) : σ :=
  turns.foldl (fun _ t => t.run.state) s

/-- what is on record after turns -/
def recordOf (events : List Event) (turns : List (Turn σ)) : List Event :=
  turns.foldl (fun events t => t.events ++ events) events

/-- **Every cleaner has one turn**, in the order of the cleaners. -/
theorem map_name_inTurn (cleaners : List (Cleaner I)) :
    (inTurn serve cutoff cleaners s).map (·.name) = cleaners.map (·.name) := by
  induction cleaners generalizing s with
  | nil => rfl
  | cons c rest ih =>
    simp only [inTurn, List.map_cons, ih]
    rfl

/-! ## What a cleanup does with its cleaners -/

theorem ends_runCleaner (c : Cleaner I) (Q : Prog.Goal σ Outcome) (s : σ) (events : List Event) :
    (runCleaner cutoff c).Ends serve Q s events ↔
      Q (.ok (Turn.of serve cutoff c s).outcome) (Turn.of serve cutoff c s).run.state
        ((Turn.of serve cutoff c s).events ++ events) := by
  unfold runCleaner
  rw [Prog.ends_bind, Prog.ends_attempt, Prog.ends_iff_run]
  unfold Turn.of
  generalize (c.execute cutoff).run serve s = run
  obtain ⟨outcome, t, record⟩ := run
  cases outcome with
  | ok n => exact Iff.rfl
  | error e => exact Iff.rfl

/-- **A round of cleaners is their executions in turn.** -/
theorem ends_cleaners (cleaners : List (Cleaner I)) (Q : Prog.Goal σ (List Outcome)) (s : σ) (events : List Event) :
    (cleaners.mapM (runCleaner cutoff)).Ends serve Q s events ↔
      Q (.ok ((inTurn serve cutoff cleaners s).map Turn.outcome)) (leftBy s (inTurn serve cutoff cleaners s))
        (recordOf events (inTurn serve cutoff cleaners s)) := by
  induction cleaners generalizing Q s events with
  | nil => exact Iff.rfl
  | cons c rest ih =>
    rw [List.mapM_cons, Prog.ends_bind, ends_runCleaner]
    dsimp only
    rw [Prog.ends_bind, ih]
    exact Iff.rfl

/-! ## What is reported -/

theorem failedNames_outcomes (turns : List (Turn σ)) :
    failedNames (turns.map Turn.outcome) = (turns.filter (·.failed)).map (·.name) := by
  induction turns with
  | nil => rfl
  | cons t turns ih =>
    unfold failedNames at ih ⊢
    rw [List.map_cons, List.filterMap_cons, List.filter_cons, ih]
    unfold Turn.outcome Turn.failed
    cases t.run.outcome <;> rfl

theorem setCount_of_not_mem {counts : List (String × Nat)} {name : String} (n : Nat)
    (absent : name ∉ counts.map (·.1)) : setCount counts name n = counts ++ [(name, n)] := by
  unfold setCount
  rw [if_neg]
  intro found
  obtain ⟨c, hc, same⟩ := List.any_eq_true.1 found
  exact absent (List.mem_map.2 ⟨c, hc, eq_of_beq same⟩)

theorem countsOf_of_nodup (counts : List (String × Nat)) (distinct : (counts.map (·.1)).Nodup) :
    countsOf (counts.map fun c => (c.1, .ok c.2)) = counts := by
  induction counts using List.reverseRecOn with
  | nil => rfl
  | append_singleton counts c ih =>
    rw [List.map_append, List.nodup_append] at distinct
    have absent : c.1 ∉ counts.map (·.1) := by
      intro mem
      exact distinct.2.2 _ mem _ (by simp) rfl
    unfold countsOf at ih ⊢
    rw [List.map_append, List.foldl_append, ih distinct.1]
    exact setCount_of_not_mem c.2 absent

/-- the numbers of deleted items by name, where nobody failed -/
def Counted (turns : List (Turn σ)) (counts : List (String × Nat)) : Prop :=
  turns.map Turn.outcome = counts.map fun c => (c.1, .ok c.2)

theorem Counted.names {turns : List (Turn σ)} {counts : List (String × Nat)} (h : Counted turns counts) :
    counts.map (·.1) = turns.map (·.name) := by
  have firsts := congrArg (List.map Prod.fst) h
  simpa [Function.comp_def, Turn.outcome] using firsts.symm

theorem Counted.unique {turns : List (Turn σ)} {counts counts' : List (String × Nat)} (h : Counted turns counts)
    (h' : Counted turns counts') : counts = counts' := by
  have same : counts.map (fun c => (c.1, (Except.ok c.2 : Except Failure Nat))) = counts'.map fun c => (c.1, .ok c.2) :=
    Eq.trans h.symm h'
  refine (List.map_inj_right ?_).1 same
  intro a b hab
  simpa [Prod.ext_iff] using hab

theorem Counted.fine {turns : List (Turn σ)} {counts : List (String × Nat)} (h : Counted turns counts) :
    turns.any (·.failed) = false := by
  rw [List.any_eq_false]
  intro t ht
  have known : t.outcome ∈ counts.map fun c => (c.1, .ok c.2) := h ▸ List.mem_map_of_mem ht
  obtain ⟨c, -, same⟩ := List.mem_map.1 known
  simp [Turn.failed, ← (Prod.mk.inj same).2, Except.isOk, Except.toBool]

theorem exists_counted {turns : List (Turn σ)} (fine : turns.any (·.failed) = false) :
    ∃ counts, Counted turns counts := by
  induction turns with
  | nil => exact ⟨[], rfl⟩
  | cons t turns ih =>
    rw [List.any_cons, Bool.or_eq_false_iff] at fine
    obtain ⟨counts, hc⟩ := ih fine.2
    cases h : t.run.outcome with
    | ok n =>
      refine ⟨(t.name, n) :: counts, ?_⟩
      unfold Counted at hc ⊢
      rw [List.map_cons, List.map_cons, hc, Turn.outcome, h]
    | error e =>
      have failed : t.failed = true := by
        unfold Turn.failed
        rw [h]
        rfl
      rw [fine.1] at failed
      cases failed

/-- what a cleanup comes to, by the turns of its cleaners -/
theorem runCleanup_outcome (serve : (c : I.Call) → σ → I.Reply c × σ) (cleaners : List (Cleaner I))
    (cutoff : Time.Timestamp) (s : σ) (events : List Event) :
    (runCleanup cleaners cutoff).Ends serve (fun r t more =>
      t = leftBy s (inTurn serve cutoff cleaners s) ∧ more = recordOf events (inTurn serve cutoff cleaners s) ∧
      r = if (inTurn serve cutoff cleaners s).any (·.failed) then
          .error (.cleanup (((inTurn serve cutoff cleaners s).filter (·.failed)).map (·.name)))
        else .ok (countsOf ((inTurn serve cutoff cleaners s).map Turn.outcome))) s events := by
  unfold runCleanup
  rw [Prog.ends_bind, ends_cleaners]
  dsimp only
  rw [failedNames_outcomes]
  generalize inTurn serve cutoff cleaners s = turns
  cases failures : turns.filter (·.failed) with
  | nil =>
    have fine : ¬(turns.any (·.failed) = true) := by
      intro fails
      obtain ⟨t, ht, failed⟩ := List.any_eq_true.1 fails
      exact List.filter_eq_nil_iff.1 failures t ht failed
    rw [if_neg fine]
    exact ⟨rfl, rfl, rfl⟩
  | cons t rest =>
    obtain ⟨ht, failed⟩ := List.mem_filter.1 (failures ▸ List.mem_cons_self : t ∈ turns.filter (·.failed))
    rw [if_pos (List.any_eq_true.2 ⟨t, ht, failed⟩)]
    exact ⟨rfl, rfl, rfl⟩

/-- **A cleanup executes all its cleaners in turn, and reports what became of each.** The state and the record that it
leaves are those of the turns. It gives numbers by name exactly if they are the numbers of all its cleaners; and it fails
exactly if a cleaner failed, with the names of those that did. -/
theorem runCleanup_in_turn (serve : (c : I.Call) → σ → I.Reply c × σ) (cleaners : List (Cleaner I))
    (cutoff : Time.Timestamp) (s : σ) (distinct : (cleaners.map (·.name)).Nodup) :
    let turns := inTurn serve cutoff cleaners s
    let run := (runCleanup cleaners cutoff).run serve s
    turns.map (·.name) = cleaners.map (·.name) ∧ run.state = leftBy s turns ∧ run.record = recordOf [] turns ∧
      (∀ counts, run.outcome = .ok counts ↔ Counted turns counts) ∧
      ∀ e, run.outcome = .error e ↔
        (∃ t ∈ turns, t.failed = true) ∧ e = .cleanup ((turns.filter (·.failed)).map (·.name)) := by
  intro turns run
  have ends := runCleanup_outcome serve cleaners cutoff s []
  rw [Prog.ends_iff_run, List.append_nil] at ends
  obtain ⟨state, record, outcome⟩ := ends
  have named : turns.map (·.name) = cleaners.map (·.name) := map_name_inTurn cleaners
  refine ⟨named, state, record, ?_⟩
  rw [← List.any_eq_true]
  cases failed : turns.any (·.failed) with
  | false =>
    obtain ⟨counts, counted⟩ := exists_counted failed
    have given : run.outcome = .ok counts := by
      have fine : run.outcome = .ok (countsOf (turns.map Turn.outcome)) := outcome.trans (if_neg (by simp [turns, failed]))
      rw [fine, show turns.map Turn.outcome = _ from counted, countsOf_of_nodup counts]
      rw [counted.names, named]
      exact distinct
    constructor
    · intro counts'
      rw [given, Except.ok.injEq]
      exact ⟨fun same => same ▸ counted, counted.unique⟩
    · intro e
      rw [given]
      simp
  | true =>
    have given : run.outcome = .error (.cleanup ((turns.filter (·.failed)).map (·.name))) := outcome.trans (if_pos failed)
    constructor
    · intro counts
      rw [given]
      constructor
      · intro fine
        cases fine
      · intro counted
        rw [counted.fine] at failed
        cases failed
    · intro e
      rw [given, Except.error.injEq]
      simp [eq_comm]

/-- the second of three shelves counts one record too many, and fails where that one should come -/
def brokenMiddle : List Shelf :=
  [.stocked "a" [("x", -3, .goes)] none none, .stocked "b" [("y", -2, .goes)] (some (.fetching 1)) (some 2),
    .stocked "c" [("v", -5, .goes), ("w", 5, .goes)] none none]

/-- cleaners of the three shelves, with one record a page -/
def shelfCleaners : List (Cleaner shelving) :=
  [⟨onShelf 0 "a", 1, Nat.one_pos⟩, ⟨onShelf 1 "b", 1, Nat.one_pos⟩, ⟨onShelf 2 "c", 1, Nat.one_pos⟩]

/-- what was deleted before the failure stays deleted, and the cleaner after it does its work -/
theorem runCleanup_brokenMiddle :
    let run := (runCleanup shelfCleaners default).run serveShelf brokenMiddle
    run.outcome = .error (.cleanup ["b"]) ∧ run.state.map Shelf.remaining = [[], [], ["w"]] := by
  intro run
  obtain ⟨-, state, -, -, fails⟩ :=
    runCleanup_in_turn serveShelf shelfCleaners default brokenMiddle (by decide)
  have names : ((inTurn serveShelf default shelfCleaners brokenMiddle).filter (·.failed)).map (·.name) = ["b"] := by
    decide +kernel
  have one : ∃ t ∈ inTurn serveShelf default shelfCleaners brokenMiddle, t.failed = true := by decide +kernel
  refine ⟨(fails _).2 ⟨one, congrArg Failure.cleanup names.symm⟩, ?_⟩
  rw [show run.state = _ from state]
  decide +kernel

end Retention

end Depot
