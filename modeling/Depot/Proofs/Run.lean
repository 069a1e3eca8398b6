/-
Runs of programs, and what holds where they end.

`Prog.Ends serve p Q s events` says that the run of `p` from the state `s`, after `events`, ends with an outcome, a
state and events as `Q` asks. The rules follow the constructors (`ends_done` and so on), sequences (`Ends.bind`),
failures that are taken over or made values (`Ends.rescue`, `Ends.attempt`) and loops over a list (`Ends.foldlM`,
`Ends.mapM`). `ends_iff` ties it to `Prog.runFrom`, and `ends_iff_run` to `Prog.run`.

`Prog.Only ok p` says that `p` makes no calls but those in `ok`, whatever the replies are. What each of these calls
keeps, the whole run keeps (`Only.keeps`).

`Prog.Makes serve kind p s` says that the run of `p` from `s` makes a call that is, with its reply, of a kind. `watch`
keeps a note of this beside the state (`ends_watch`). `Prog.calls serve kind p s` says how many calls of a kind it makes,
and `tally` counts them beside the state (`ends_tally`).

`Prog.Gives serve p s r t` says that the run of `p` from `s` has the outcome `r` and leaves `t`. A sequence gives what its
parts give (`gives_bind`).
-/
import Depot.Service

namespace Depot.Prog

variable {I : Interface} {α β σ : Type} {serve : (c : I.Call) → σ → I.Reply c × σ}

/-! ## Ends of runs -/

/-- what is asked of an outcome, of the state it comes with, and of the events so far, the last one first -/
abbrev Goal (σ α : Type) := Except Failure α → σ → List Event → Prop

/-- the run of a program from a state, after some events, ends as it is asked to -/
def Ends (serve : (c : I.Call) → σ → I.Reply c × σ) : Prog I α → Goal σ α → σ → List Event → Prop
  | .done a, Q, s, events => Q (.ok a) s events
  | .fail e, Q, s, events => Q (.error e) s events
  | .note e next, Q, s, events => next.Ends serve Q s (e :: events)
  | .call c next, Q, s, events => (next (serve c s).1).Ends serve Q (serve c s).2 events

theorem ends_iff (p : Prog I α) (Q : Goal σ α) (s : σ) (events : List Event) :
    p.Ends serve Q s events ↔
      Q (p.runFrom serve s events).outcome (p.runFrom serve s events).state (p.runFrom serve s events).record := by
  induction p generalizing s events with
  | done a => rfl
  | fail e => rfl
  | note e next ih => exact ih s (e :: events)
  | call c next ih => exact ih _ _ _

/-- the events before a run stay behind those of the run -/
theorem runFrom_append (p : Prog I α) (s : σ) (more events : List Event) :
    p.runFrom serve s (more ++ events) =
      { p.runFrom serve s more with record := (p.runFrom serve s more).record ++ events } := by
  induction p generalizing s more with
  | done a => rfl
  | fail e => rfl
  | note e next ih => exact ih s (e :: more)
  | call c next ih => exact ih (serve c s).1 (serve c s).2 more

/-- **What a run comes to** is what it comes to when nothing was before. -/
theorem ends_iff_run (p : Prog I α) (Q : Goal σ α) (s : σ) (events : List Event) : p.Ends serve Q s events ↔
    Q (p.run serve s).outcome (p.run serve s).state ((p.run serve s).record ++ events) := by
  rw [ends_iff, show p.runFrom serve s events = _ from runFrom_append p s [] events]
  rfl

variable {p : Prog I α} {Q R : Goal σ α} {s : σ} {events : List Event}

/-- **Consequence.** -/
theorem Ends.mono (h : p.Ends serve R s events) (hQ : ∀ r s events, R r s events → Q r s events) :
    p.Ends serve Q s events := by
  rw [ends_iff] at h ⊢
  exact hQ _ _ _ h

theorem ends_of (p : Prog I α) (h : ∀ r s events, Q r s events) (s : σ) (events : List Event) :
    p.Ends serve Q s events :=
  (ends_iff p Q s events).2 (h _ _ _)

theorem Ends.and (h : p.Ends serve Q s events) (h' : p.Ends serve R s events) :
    p.Ends serve (fun r s events => Q r s events ∧ R r s events) s events := by
  rw [ends_iff] at h h' ⊢
  exact ⟨h, h'⟩

@[simp] theorem ends_done (a : α) : (Prog.done a : Prog I α).Ends serve Q s events ↔ Q (.ok a) s events := Iff.rfl

@[simp] theorem ends_pure (a : α) : (pure a : Prog I α).Ends serve Q s events ↔ Q (.ok a) s events := Iff.rfl

@[simp] theorem ends_fail (e : Failure) : (Prog.fail e : Prog I α).Ends serve Q s events ↔ Q (.error e) s events :=
  Iff.rfl

@[simp] theorem ends_ofExcept (r : Except Failure α) :
    (Prog.ofExcept r : Prog I α).Ends serve Q s events ↔ Q r s events := by
  cases r <;> rfl

/-- the outcome that a reply is when no fault in it is accounted for -/
def bare : Except Fault α → Except Failure α
  | .ok a => .ok a
  | .error f => .error (.fault f)

theorem bare_eq_ok {r : Except Fault α} {a : α} : bare r = .ok a ↔ r = .ok a := by
  cases r <;> simp [bare]

@[simp] theorem ends_ofReply (r : Except Fault α) :
    (Prog.ofReply r : Prog I α).Ends serve Q s events ↔ Q (bare r) s events := by
  cases r <;> rfl

@[simp] theorem ends_ask_bind (c : I.Call) (f : I.Reply c → Prog I α) :
    (Prog.ask c >>= f).Ends serve Q s events ↔ (f (serve c s).1).Ends serve Q (serve c s).2 events := Iff.rfl

@[simp] theorem ends_record_bind (e : Event) (f : Unit → Prog I α) :
    (Prog.record e >>= f).Ends serve Q s events ↔ (f ()).Ends serve Q s (e :: events) := Iff.rfl

@[simp] theorem ofExcept_ok_bind (a : α) (f : α → Prog I β) : Prog.ofExcept (.ok a) >>= f = f a := rfl

@[simp] theorem ofExcept_error_bind (e : Failure) (f : α → Prog I β) : Prog.ofExcept (.error e) >>= f = .fail e := rfl

@[simp] theorem ofReply_ok_bind (a : α) (f : α → Prog I β) : Prog.ofReply (.ok a) >>= f = f a := rfl

@[simp] theorem ofReply_error_bind (x : Fault) (f : α → Prog I β) :
    Prog.ofReply (.error x) >>= f = .fail (.fault x) := rfl

@[simp] theorem fail_bind (e : Failure) (f : α → Prog I β) : Prog.fail e >>= f = .fail e := rfl

theorem ends_bind (p : Prog I α) (f : α → Prog I β) (Q : Goal σ β) (s : σ) (events : List Event) :
    (p >>= f).Ends serve Q s events ↔
      p.Ends serve (fun r s events => match r with
        | .ok a => (f a).Ends serve Q s events
        | .error e => Q (.error e) s events) s events := by
  induction p generalizing s events with
  | done a => rfl
  | fail e => rfl
  | note e next ih => exact ih s (e :: events)
  | call c next ih => exact ih _ _ _

/-- **One program after another.** -/
theorem Ends.bind {f : α → Prog I β} {Q : Goal σ β} (h : p.Ends serve R s events)
    (ok : ∀ a s events, R (.ok a) s events → (f a).Ends serve Q s events)
    (error : ∀ e s events, R (.error e) s events → Q (.error e) s events) : (p >>= f).Ends serve Q s events := by
  rw [ends_bind]
  refine h.mono fun r s events hr => ?_
  cases r with
  | ok a => exact ok a s events hr
  | error e => exact error e s events hr

/-- what is asked of a run that does not fail -/
def Succeeds (R : α → σ → List Event → Prop) : Goal σ α :=
  fun r s events => ∃ a, r = .ok a ∧ R a s events

/-- **One program after another that does not fail.** -/
theorem Ends.bind_ok {R : α → σ → List Event → Prop} {f : α → Prog I β} {Q : Goal σ β}
    (h : p.Ends serve (Succeeds R) s events) (ok : ∀ a s events, R a s events → (f a).Ends serve Q s events) :
    (p >>= f).Ends serve Q s events := by
  refine h.bind (fun a s events ha => ?_) (fun e s events he => ?_)
  · obtain ⟨_, ⟨⟩, ha⟩ := ha
    exact ok a s events ha
  · obtain ⟨_, failed, -⟩ := he
    cases failed

theorem Ends.bind_value {a : α} {R : σ → List Event → Prop} {f : α → Prog I β} {Q : Goal σ β}
    (h : p.Ends serve (fun r s events => r = .ok a ∧ R s events) s events)
    (ok : ∀ s events, R s events → (f a).Ends serve Q s events) : (p >>= f).Ends serve Q s events := by
  apply h.bind
  · intro b s events ⟨same, hs⟩
    obtain rfl := Except.ok.inj same
    exact ok s events hs
  · intro e s events ⟨failed, _⟩
    cases failed

theorem Ends.bind_either {a : α} {F R : σ → Prop} {f : α → Prog I β} {Q : Goal σ β}
    (h : p.Ends serve (fun r s _ => (∃ e, r = .error e ∧ F s) ∨ r = .ok a ∧ R s) s events)
    (ok : ∀ s events, R s → (f a).Ends serve Q s events) (error : ∀ e s events, F s → Q (.error e) s events) :
    (p >>= f).Ends serve Q s events := by
  apply h.bind
  · rintro b s events (⟨e, failed, -⟩ | ⟨same, hs⟩)
    · cases failed
    · obtain rfl := Except.ok.inj same
      exact ok s events hs
  · rintro e s events (⟨e', -, hs⟩ | ⟨failed, -⟩)
    · exact error e s events hs
    · cases failed

/-- **A failure that is taken over.** -/
theorem Ends.rescue {handle : Failure → Prog I α} (h : p.Ends serve R s events)
    (ok : ∀ a s events, R (.ok a) s events → Q (.ok a) s events)
    (error : ∀ e s events, R (.error e) s events → (handle e).Ends serve Q s events) :
    (p.rescue handle).Ends serve Q s events := by
  induction p generalizing s events with
  | done a => exact ok a s events h
  | fail e => exact error e s events h
  | note e next ih => exact ih h
  | call c next ih => exact ih _ h

/-- **A failure that is made a value.** -/
theorem ends_attempt (p : Prog I α) (Q : Goal σ (Except Failure α)) (s : σ) (events : List Event) :
    p.attempt.Ends serve Q s events ↔ p.Ends serve (fun r s events => Q (.ok r) s events) s events := by
  induction p generalizing s events with
  | done a => rfl
  | fail e => rfl
  | note e next ih => exact ih s (e :: events)
  | call c next ih => exact ih _ _ _

/-- **Loops that fold a list.** `J` holds of the items still to come, of the value so far, and of what surrounds it. -/
theorem Ends.foldlM {γ : Type} {step : β → γ → Prog I β} {Q : Goal σ β}
    (J : List γ → β → σ → List Event → Prop)
    (body : ∀ x rest b s events, J (x :: rest) b s events → (step b x).Ends serve (fun r s events => match r with
      | .ok b => J rest b s events
      | .error e => Q (.error e) s events) s events)
    (last : ∀ b s events, J [] b s events → Q (.ok b) s events)
    (xs : List γ) (b : β) (s : σ) (events : List Event) (h : J xs b s events) :
    (xs.foldlM step b).Ends serve Q s events := by
  induction xs generalizing b s events with
  | nil => exact last b s events h
  | cons x rest ih =>
    rw [List.foldlM_cons]
    refine (body x rest b s events h).bind (fun b s events hb => ih b s events hb) (fun e s events he => he)

/-- **Loops that map a list.** -/
theorem Ends.mapM {γ : Type _} {f : γ → Prog I β} {Q : Goal σ (List β)}
    (J : List γ → List β → σ → List Event → Prop)
    (body : ∀ x rest bs s events, J (x :: rest) bs s events → (f x).Ends serve (fun r s events => match r with
      | .ok b => J rest (bs ++ [b]) s events
      | .error e => Q (.error e) s events) s events)
    (last : ∀ bs s events, J [] bs s events → Q (.ok bs) s events)
    (xs : List γ) (s : σ) (events : List Event) (h : J xs [] s events) :
    (xs.mapM f).Ends serve Q s events := by
  have general : ∀ (xs : List γ) (bs : List β) (s : σ) (events : List Event), J xs bs s events →
      (xs.mapM f >>= fun more => pure (bs ++ more)).Ends serve Q s events := by
    intro xs
    induction xs with
    | nil => intro bs s events h; simpa using last bs s events h
    | cons x rest ih =>
      intro bs s events h
      simp only [List.mapM_cons, LawfulMonad.bind_assoc, LawfulMonad.pure_bind]
      refine (body x rest bs s events h).bind (fun b s events hb => ?_) (fun e s events he => he)
      simpa [List.append_assoc] using ih (bs ++ [b]) s events hb
  simpa using general xs [] s events h

theorem ends_records {γ : Type} (f : γ → Event) (xs : List γ) (s : σ) (events : List Event) :
    (xs.forM fun x => Prog.record (I := I) (f x)).Ends serve (fun r t _ => r = .ok () ∧ t = s) s events := by
  induction xs generalizing events with
  | nil => exact ⟨rfl, rfl⟩
  | cons x rest ih => exact ih (f x :: events)

/-- events are put on record after those before -/
theorem ends_suffix (p : Prog I α) (s : σ) (events : List Event) :
    p.Ends serve (fun _ _ more => events <:+ more) s events := by
  induction p generalizing s events with
  | done a => exact List.suffix_refl events
  | fail e => exact List.suffix_refl events
  | note e next ih => exact (ih s (e :: events)).mono fun _ _ _ h => (List.suffix_cons e events).trans h
  | call c next ih => exact ih _ _ _

/-! ## Programs that make some calls only -/

/-- a program that makes no other calls, whatever the replies are -/
inductive Only (ok : I.Call → Prop) : Prog I α → Prop
  | done (a : α) : Only ok (.done a)
  | fail (e : Failure) : Only ok (.fail e)
  | note {e : Event} {next : Prog I α} (h : Only ok next) : Only ok (.note e next)
  | call {c : I.Call} {next : I.Reply c → Prog I α} (h : ok c) (hnext : ∀ reply, Only ok (next reply)) :
    Only ok (.call c next)

variable {ok : I.Call → Prop}

theorem only_pure (a : α) : (pure a : Prog I α).Only ok := .done a

theorem only_any (h : ∀ c, ok c) (p : Prog I α) : p.Only ok := by
  induction p with
  | done a => exact .done a
  | fail e => exact .fail e
  | note e next ih => exact .note ih
  | call c next ih => exact .call (h c) ih

theorem only_record (e : Event) : (Prog.record e : Prog I Unit).Only ok := .note (.done ())

theorem only_ofExcept (r : Except Failure α) : (Prog.ofExcept r : Prog I α).Only ok := by
  cases r with
  | ok a => exact .done a
  | error e => exact .fail e

theorem only_ofReply (r : Except Fault α) : (Prog.ofReply r : Prog I α).Only ok := by
  cases r with
  | ok a => exact .done a
  | error f => exact .fail _

theorem only_ask {c : I.Call} (h : ok c) : (Prog.ask c : Prog I (I.Reply c)).Only ok :=
  .call h fun reply => .done reply

theorem Only.bind {f : α → Prog I β} (h : p.Only ok) (hf : ∀ a, (f a).Only ok) : (p >>= f).Only ok := by
  induction h with
  | done a => exact hf a
  | fail e => exact .fail e
  | note _ ih => exact .note ih
  | call hc _ ih => exact .call hc ih

theorem Only.rescue {handle : Failure → Prog I α} (h : p.Only ok) (hh : ∀ e, (handle e).Only ok) :
    (p.rescue handle).Only ok := by
  induction h with
  | done a => exact .done a
  | fail e => exact hh e
  | note _ ih => exact .note ih
  | call hc _ ih => exact .call hc ih

theorem Only.attempt (h : p.Only ok) : p.attempt.Only ok := by
  induction h with
  | done a => exact .done _
  | fail e => exact .done _
  | note _ ih => exact .note ih
  | call hc _ ih => exact .call hc ih

theorem Only.foldlM {γ : Type} {step : β → γ → Prog I β} (h : ∀ b x, (step b x).Only ok) (xs : List γ) (b : β) :
    (xs.foldlM step b).Only ok := by
  induction xs generalizing b with
  | nil => exact .done b
  | cons x rest ih => rw [List.foldlM_cons]; exact (h b x).bind ih

theorem Only.mapM {γ : Type _} {f : γ → Prog I β} {xs : List γ} (h : ∀ x ∈ xs, (f x).Only ok) : (xs.mapM f).Only ok := by
  induction xs with
  | nil => exact .done []
  | cons x rest ih =>
    rw [List.mapM_cons]
    exact (h x List.mem_cons_self).bind fun b => (ih fun y hy => h y (List.mem_cons_of_mem _ hy)).bind fun bs =>
      only_pure _

theorem Only.forM {γ : Type} {f : γ → Prog I Unit} (h : ∀ x, (f x).Only ok) (xs : List γ) : (xs.forM f).Only ok := by
  induction xs with
  | nil => exact .done ()
  | cons x rest ih => exact (h x).bind fun _ => ih

theorem Only.mono {ok' : I.Call → Prop} (h : p.Only ok) (sub : ∀ c, ok c → ok' c) : p.Only ok' := by
  induction h with
  | done a => exact .done a
  | fail e => exact .fail e
  | note _ ih => exact .note ih
  | call hc _ ih => exact .call (sub _ hc) ih

/-- **What each call and each record keeps, a run keeps.** -/
theorem Only.keeps_events {J : σ → List Event → Prop} (step : ∀ c s events, ok c → J s events → J (serve c s).2 events)
    (note : ∀ e s events, J s events → J s (e :: events)) (h : p.Only ok) (hs : J s events) :
    p.Ends serve (fun _ s events => J s events) s events := by
  induction h generalizing s events with
  | done a => exact hs
  | fail e => exact hs
  | note _ ih => exact ih (note _ s events hs)
  | call hc _ ih => exact ih _ (step _ s events hc hs)

/-- **What each call keeps, a run keeps.** -/
theorem Only.keeps {J : σ → Prop} (step : ∀ c s, ok c → J s → J (serve c s).2) (h : p.Only ok) (hs : J s) :
    p.Ends serve (fun _ s _ => J s) s events :=
  h.keeps_events (J := fun s _ => J s) (fun c s _ => step c s) (fun _ _ _ => id) hs

/-! ## Calls of a kind -/

/-- the run of a program from a state makes a call that is, with its reply, of a kind -/
def Makes (serve : (c : I.Call) → σ → I.Reply c × σ) (kind : (c : I.Call) → I.Reply c → Prop) : Prog I α → σ → Prop
  | .done _, _ => False
  | .fail _, _ => False
  | .note _ next, s => next.Makes serve kind s
  | .call c next, s => kind c (serve c s).1 ∨ (next (serve c s).1).Makes serve kind (serve c s).2

/-- the same replies, with a note of whether a call was of a kind -/
def watch (serve : (c : I.Call) → σ → I.Reply c × σ) (kind : (c : I.Call) → I.Reply c → Prop) (c : I.Call)
    (s : σ × Prop) : I.Reply c × (σ × Prop) :=
  ((serve c s.1).1, ((serve c s.1).2, s.2 ∨ kind c (serve c s.1).1))

variable {kind : (c : I.Call) → I.Reply c → Prop} {seen : Prop}

theorem ends_watch_from (p : Prog I α) (Q : Goal (σ × Prop) α) (s : σ) (seen : Prop) (events : List Event) :
    p.Ends (watch serve kind) Q (s, seen) events ↔
      p.Ends serve (fun r t more => Q r (t, seen ∨ p.Makes serve kind s) more) s events := by
  induction p generalizing s seen events with
  | done a => simp [Makes]
  | fail e => simp [Makes]
  | note e next ih => exact ih s seen (e :: events)
  | call c next ih =>
    refine (ih (serve c s).1 (serve c s).2 (seen ∨ kind c (serve c s).1) events).trans ?_
    simp only [Ends, Makes, or_assoc]

/-- **A run with notes is the run with what is noted of it.** -/
theorem ends_watch (p : Prog I α) (Q : Goal (σ × Prop) α) (s : σ) (events : List Event) :
    p.Ends (watch serve kind) Q (s, False) events ↔
      p.Ends serve (fun r t more => Q r (t, p.Makes serve kind s) more) s events := by
  rw [ends_watch_from]
  simp only [false_or]

/-- what is known of a run is known of the run with notes, and no note gets lost -/
theorem Ends.watched (h : p.Ends serve Q s events) :
    p.Ends (watch serve kind) (fun r t more => Q r t.1 more ∧ (seen → t.2)) (s, seen) events := by
  rw [ends_watch_from]
  exact h.mono fun r t more hQ => ⟨hQ, Or.inl⟩

/-! ## Numbers of calls -/

/-- how many calls of a kind the run of a program from a state makes -/
def calls (serve : (c : I.Call) → σ → I.Reply c × σ) (kind : I.Call → Bool) : Prog I α → σ → Nat
  | .done _, _ => 0
  | .fail _, _ => 0
  | .note _ next, s => next.calls serve kind s
  | .call c next, s => (kind c).toNat + (next (serve c s).1).calls serve kind (serve c s).2

/-- the same replies, with a count of the calls of a kind -/
def tally (serve : (c : I.Call) → σ → I.Reply c × σ) (kind : I.Call → Bool) (c : I.Call) (s : σ × Nat) :
    I.Reply c × (σ × Nat) :=
  ((serve c s.1).1, ((serve c s.1).2, s.2 + (kind c).toNat))

section Tally

variable {kind : I.Call → Bool} {n : Nat}

/-- **A run with a count is the run with the number of its calls.** -/
theorem ends_tally (p : Prog I α) (Q : Goal (σ × Nat) α) (s : σ) (n : Nat) (events : List Event) :
    p.Ends (tally serve kind) Q (s, n) events ↔
      p.Ends serve (fun r t more => Q r (t, n + p.calls serve kind s) more) s events := by
  induction p generalizing s n events with
  | done a => rfl
  | fail e => rfl
  | note e next ih => exact ih s n (e :: events)
  | call c next ih =>
    refine (ih (serve c s).1 (serve c s).2 (n + (kind c).toNat) events).trans ?_
    simp only [Ends, calls, Nat.add_assoc]

/-- what is known of a run, with the number of its calls, is known of the run with a count -/
theorem Ends.counted {m : Nat} (h : p.Ends serve Q s events) (number : p.calls serve kind s = m) :
    p.Ends (tally serve kind) (fun r t more => Q r t.1 more ∧ t.2 = n + m) (s, n) events := by
  rw [ends_tally]
  exact h.mono fun r t more hQ => ⟨hQ, congrArg (n + ·) number⟩

theorem Only.calls_eq_zero (h : p.Only (kind · = false)) (s : σ) : p.calls serve kind s = 0 := by
  induction h generalizing s with
  | done a => rfl
  | fail e => rfl
  | note _ ih => exact ih s
  | call hc _ ih =>
    unfold calls
    rw [hc, ih]
    rfl

end Tally

/-! ## What runs give -/

section Gives

variable {r : Except Failure α} {t : σ}

/-- the run of a program from a state has an outcome and leaves a state -/
def Gives (serve : (c : I.Call) → σ → I.Reply c × σ) (p : Prog I α) (s : σ) (r : Except Failure α) (t : σ) : Prop :=
  (p.run serve s).outcome = r ∧ (p.run serve s).state = t

/-- outcome and state do not depend on the events before -/
theorem ends_events {Q : Except Failure α → σ → Prop} (events events' : List Event) :
    p.Ends serve (fun r t _ => Q r t) s events ↔ p.Ends serve (fun r t _ => Q r t) s events' := by
  induction p generalizing s events events' with
  | done a => rfl
  | fail e => rfl
  | note e next ih => exact ih (e :: events) (e :: events')
  | call c next ih => exact ih _ events events'

theorem gives_iff (events : List Event) :
    p.Gives serve s r t ↔ p.Ends serve (fun r' t' _ => r' = r ∧ t' = t) s events := by
  rw [ends_events events [], ends_iff]
  rfl

/-- what all ends have in common holds of what a run gives -/
theorem Ends.of_gives {Q : Except Failure α → σ → Prop} {events : List Event}
    (h : p.Ends serve (fun r t _ => Q r t) s events) (given : p.Gives serve s r t) : Q r t := by
  rw [ends_events events [], ends_iff] at h
  obtain ⟨rfl, rfl⟩ := given
  exact h

/-- **One program after another:** the first one gives a value to the second, or fails. -/
theorem gives_bind {f : α → Prog I β} {r : Except Failure β} : (p >>= f).Gives serve s r t ↔
    (∃ a u, p.Gives serve s (.ok a) u ∧ (f a).Gives serve u r t) ∨ ∃ e, r = .error e ∧ p.Gives serve s (.error e) t := by
  rw [gives_iff [], ends_bind, ends_iff]
  show (match (p.run serve s).outcome with | .ok a => _ | .error e => _) ↔ _
  cases h : (p.run serve s).outcome with
  | ok a =>
    constructor
    · exact fun next => .inl ⟨a, _, ⟨h, rfl⟩, (gives_iff _).2 next⟩
    · rintro (⟨a', u, ⟨same, rfl⟩, next⟩ | ⟨e, -, failed, -⟩)
      · obtain rfl := Except.ok.inj (h.symm.trans same)
        exact (gives_iff _).1 next
      · cases h.symm.trans failed
  | error e =>
    constructor
    · rintro ⟨rfl, rfl⟩
      exact .inr ⟨e, rfl, h, rfl⟩
    · rintro (⟨a, u, ⟨gave, -⟩, -⟩ | ⟨e', rfl, same, rfl⟩)
      · cases h.symm.trans gave
      · obtain rfl := Except.error.inj (h.symm.trans same)
        exact ⟨rfl, rfl⟩

theorem gives_record_bind {e : Event} {f : Unit → Prog I α} :
    (Prog.record e >>= f).Gives serve s r t ↔ (f ()).Gives serve s r t := by
  rw [gives_iff [], ends_record_bind, gives_iff [e]]

end Gives

end Depot.Prog

/-! ## Operations -/

namespace Depot.Op

variable {α σ : Type} {serve : (c : Call) → σ → c.Reply × σ} {Q R : Prog.Goal σ α} {s : σ} {events : List Event}
  {p : Op α}

theorem ends_ask_bind (c : Call) (f : c.Reply → Op α) :
    (Op.ask c >>= f).Ends serve Q s events ↔ (f (serve c s).1).Ends serve Q (serve c s).2 events := Iff.rfl

theorem ends_ask_bind_watch {kind : (c : Call) → c.Reply → Prop} {seen : Prop} {Q : Prog.Goal (σ × Prop) α} (c : Call)
    (f : c.Reply → Op α) :
    (Op.ask c >>= f).Ends (Prog.watch serve kind) Q (s, seen) events ↔
      (f (serve c s).1).Ends (Prog.watch serve kind) Q ((serve c s).2, seen ∨ kind c (serve c s).1) events := Iff.rfl

/-- **An operation whose faults are accounted for** fails where it failed, perhaps with another failure and with one
event more. -/
theorem ends_account {kind : Fault → Bool} {event : Event} {task : Task} (h : p.Ends serve R s events)
    (ok : ∀ a t more, R (.ok a) t more → Q (.ok a) t more)
    (error : ∀ e e' t more more', R (.error e) t more → more' = more ∨ more' = event :: more → Q (.error e') t more') :
    (account kind event task p).Ends serve Q s events := by
  refine Prog.Ends.rescue h ok fun e t more he => ?_
  split
  · split
    · exact error _ _ _ _ _ he (.inr rfl)
    · exact error _ _ _ _ _ he (.inl rfl)
  · exact error _ _ _ _ _ he (.inl rfl)

/-- an operation that fails or gives a value, whether or not its faults are accounted for -/
theorem ends_account_either {kind : Fault → Bool} {event : Event} {task : Task} {a : α} {F R : σ → Prop}
    (h : p.Ends serve (fun r s _ => (∃ e, r = .error e ∧ F s) ∨ r = .ok a ∧ R s) s events) :
    (account kind event task p).Ends serve (fun r s _ => (∃ e, r = .error e ∧ F s) ∨ r = .ok a ∧ R s) s events := by
  refine ends_account h (fun _ _ _ ha => ha) ?_
  rintro e e' t more more' (⟨-, -, ht⟩ | ⟨failed, -⟩) -
  · exact .inl ⟨e', rfl, ht⟩
  · cases failed

theorem ends_account_ok {kind : Fault → Bool} {event : Event} {task : Task} {R : α → σ → List Event → Prop}
    (h : p.Ends serve (Prog.Succeeds R) s events) : (account kind event task p).Ends serve (Prog.Succeeds R) s events := by
  refine ends_account h (fun _ _ _ ha => ha) ?_
  rintro e e' t more more' ⟨_, failed, -⟩
  cases failed

theorem only_ask {ok : Call → Prop} {c : Call} (h : ok c) : (Op.ask c).Only ok :=
  Prog.only_ask (I := service) h

theorem only_account {ok : Call → Prop} {kind : Fault → Bool} {event : Event} {task : Task} (h : p.Only ok) :
    (account kind event task p).Only ok := by
  refine Prog.Only.rescue h fun e => ?_
  cases e with
  | fault f =>
    dsimp only
    split
    · exact .note (.fail _)
    · exact .fail _
  | _ => exact .fail _

end Depot.Op
