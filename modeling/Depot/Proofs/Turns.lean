/-
Programs that take turns.

A `Crowd` is what is left of some programs that share their surroundings. At its turn a program makes one call or puts one
event on record, and nothing comes between a call and its reply; `Crowd.after` is the crowd after some turns, in any order
and as many as one likes. A program that has ended rests.

What others do meanwhile is told to a program by a `Protocol`: which calls it allows in a state, and which states a call
and its reply can lead to. `Prog.Follows P p Q s` says that `p` makes only calls that are allowed where it makes them,
whatever the replies are, and ends as `Q` asks. The state need not be the surroundings: it can be what is known of them
while others change them, or what the program was given so far.
-/
import Depot.Proofs.Run

namespace Depot

variable {I : Interface} {α β σ : Type}

/-! ## Protocols -/

/-- which calls are allowed in a state, and which states a call with its reply leads to -/
structure Protocol (I : Interface) (σ : Type) where
  allows : I.Call → σ → Prop
  leads : (c : I.Call) → σ → I.Reply c → σ → Prop

namespace Prog

/-- from a state on, all calls of a program are allowed, and where it ends it does so as it is asked to -/
def Follows (P : Protocol I σ) : Prog I α → (Except Failure α → σ → Prop) → σ → Prop
  | .done a, Q, s => Q (.ok a) s
  | .fail e, Q, s => Q (.error e) s
  | .note _ next, Q, s => next.Follows P Q s
  | .call c next, Q, s => P.allows c s ∧ ∀ r t, P.leads c s r t → (next r).Follows P Q t

variable {P : Protocol I σ} {p : Prog I α} {Q R : Except Failure α → σ → Prop} {s t : σ}

theorem Follows.mono (h : p.Follows P R s) (hQ : ∀ r t, R r t → Q r t) : p.Follows P Q s := by
  induction p generalizing s with
  | done a => exact hQ _ _ h
  | fail e => exact hQ _ _ h
  | note e next ih => exact ih h
  | call c next ih => exact ⟨h.1, fun r t leads => ih r (h.2 r t leads)⟩

theorem Follows.bind {f : α → Prog I β} {Q : Except Failure β → σ → Prop} (h : p.Follows P R s)
    (ok : ∀ a t, R (.ok a) t → (f a).Follows P Q t) (error : ∀ e t, R (.error e) t → Q (.error e) t) :
    (p >>= f).Follows P Q s := by
  induction p generalizing s with
  | done a => exact ok a s h
  | fail e => exact error e s h
  | note e next ih => exact ih h
  | call c next ih => exact ⟨h.1, fun r t leads => ih r (h.2 r t leads)⟩

theorem Follows.rescue {handle : Failure → Prog I α} (h : p.Follows P R s) (ok : ∀ a t, R (.ok a) t → Q (.ok a) t)
    (error : ∀ e t, R (.error e) t → (handle e).Follows P Q t) : (p.rescue handle).Follows P Q s := by
  induction p generalizing s with
  | done a => exact ok a s h
  | fail e => exact error e s h
  | note e next ih => exact ih h
  | call c next ih => exact ⟨h.1, fun r t leads => ih r (h.2 r t leads)⟩

theorem Follows.attempt {Q : Except Failure (Except Failure α) → σ → Prop}
    (h : p.Follows P (fun r t => Q (.ok r) t) s) : p.attempt.Follows P Q s := by
  induction p generalizing s with
  | done a => exact h
  | fail e => exact h
  | note e next ih => exact ih h
  | call c next ih => exact ⟨h.1, fun r t leads => ih r (h.2 r t leads)⟩

/-- **Loops that fold a list.** `J` holds of the items still to come, of the value so far, and of the state. -/
theorem Follows.foldlM {γ : Type} {step : β → γ → Prog I β} {Q : Except Failure β → σ → Prop}
    (J : List γ → β → σ → Prop)
    (body : ∀ x rest b s, J (x :: rest) b s → (step b x).Follows P (fun r t => match r with
      | .ok b => J rest b t
      | .error e => Q (.error e) t) s)
    (last : ∀ b s, J [] b s → Q (.ok b) s) (xs : List γ) (b : β) (s : σ) (h : J xs b s) :
    (xs.foldlM step b).Follows P Q s := by
  induction xs generalizing b s with
  | nil => exact last b s h
  | cons x rest ih =>
    rw [List.foldlM_cons]
    exact (body x rest b s h).bind (fun b t hb => ih b t hb) (fun e t he => he)

@[simp] theorem follows_ofReply (r : Except Fault α) :
    (Prog.ofReply r : Prog I α).Follows P Q s ↔ Q (bare r) s := by
  cases r <;> rfl

@[simp] theorem follows_ofExcept (r : Except Failure α) : (Prog.ofExcept r : Prog I α).Follows P Q s ↔ Q r s := by
  cases r <;> rfl

theorem follows_record_bind (e : Event) (f : Unit → Prog I α) :
    (Prog.record e >>= f).Follows P Q s ↔ (f ()).Follows P Q s := Iff.rfl

/-- **What each call keeps, a program keeps** whose calls are allowed as long as it is kept. -/
theorem Only.follows_keeps {ok : I.Call → Prop} {J : σ → Prop} (h : p.Only ok)
    (step : ∀ c s, ok c → J s → P.allows c s ∧ ∀ r t, P.leads c s r t → J t) (hs : J s) :
    p.Follows P (fun _ t => J t) s := by
  induction h generalizing s with
  | done a => exact hs
  | fail e => exact hs
  | note _ ih => exact ih hs
  | call hc _ ih => exact ⟨(step _ s hc hs).1, fun r t leads => ih r ((step _ s hc hs).2 r t leads)⟩

/-- a program whose calls are allowed in all states -/
theorem Only.follows {ok : I.Call → Prop} (h : p.Only ok) (allowed : ∀ c s, ok c → P.allows c s) (s : σ) :
    p.Follows P (fun _ _ => True) s :=
  h.follows_keeps (J := fun _ => True) (fun c s hc _ => ⟨allowed c s hc, fun _ _ _ => trivial⟩) trivial

theorem Only.follows_silent {τ : Type} {serve : (c : I.Call) → τ → I.Reply c × τ} {u : τ} {events : List Event}
    (silent : p.Only fun _ => False) (h : p.Ends serve (fun r _ _ => Q r s) u events) : p.Follows P Q s := by
  induction silent generalizing events with
  | done a => exact h
  | fail e => exact h
  | note _ ih => exact ih h
  | call impossible => exact impossible.elim

/-- **What is allowed stays allowed** in a state that allows as much and leads nowhere else. -/
theorem Follows.shift (h : p.Follows P Q s) (allows : ∀ c, P.allows c s → P.allows c t)
    (leads : ∀ c r u, P.leads c t r u → P.leads c s r u) (hQ : ∀ r, Q r s → Q r t) : p.Follows P Q t := by
  induction p with
  | done a => exact hQ _ h
  | fail e => exact hQ _ h
  | note e next ih => exact ih h
  | call c next _ => exact ⟨allows c h.1, fun r u hu => h.2 r u (leads c r u hu)⟩

/-! ## Replies that are collected -/

/-- the same replies, with a list of what they bring -/
def collect {γ : Type} (serve : (c : I.Call) → σ → I.Reply c × σ) (brings : (c : I.Call) → I.Reply c → List γ)
    (c : I.Call) (s : σ × List γ) : I.Reply c × (σ × List γ) :=
  ((serve c s.1).1, ((serve c s.1).2, s.2 ++ brings c (serve c s.1).1))

section Collect

variable {γ : Type} {serve : (c : I.Call) → σ → I.Reply c × σ} {brings : (c : I.Call) → I.Reply c → List γ}
  {p : Prog I α} {s : σ} {found : List γ} {events : List Event}

/-- what the replies to the calls of a run bring, one after another -/
def gathers (serve : (c : I.Call) → σ → I.Reply c × σ) (brings : (c : I.Call) → I.Reply c → List γ) :
    Prog I α → σ → List γ
  | .done _, _ => []
  | .fail _, _ => []
  | .note _ next, s => next.gathers serve brings s
  | .call c next, s => brings c (serve c s).1 ++ (next (serve c s).1).gathers serve brings (serve c s).2

/-- **A run with a list is the run with what its replies bring.** -/
theorem ends_collect (p : Prog I α) (Q : Goal (σ × List γ) α) (s : σ) (found : List γ) (events : List Event) :
    p.Ends (collect serve brings) Q (s, found) events ↔
      p.Ends serve (fun r t more => Q r (t, found ++ p.gathers serve brings s) more) s events := by
  induction p generalizing s found events with
  | done a => simp [Ends, gathers]
  | fail e => simp [Ends, gathers]
  | note e next ih => exact ih s found (e :: events)
  | call c next ih =>
    refine (ih (serve c s).1 (serve c s).2 (found ++ brings c (serve c s).1) events).trans ?_
    simp only [Ends, gathers, List.append_assoc]

theorem Only.gathers_eq_nil (silent : p.Only fun c => ∀ r, brings c r = []) (s : σ) : p.gathers serve brings s = [] := by
  induction silent generalizing s with
  | done a => rfl
  | fail e => rfl
  | note _ ih => exact ih s
  | call hc _ ih => rw [gathers, hc, ih, List.append_nil]

/-- a run whose replies bring nothing leaves the list as it is -/
theorem Ends.collected {Q : Goal σ α} (h : p.Ends serve Q s events) (silent : p.Only fun c => ∀ r, brings c r = []) :
    p.Ends (collect serve brings) (fun r t more => Q r t.1 more ∧ t.2 = found) (s, found) events := by
  rw [ends_collect]
  exact h.mono fun r t more hQ => ⟨hQ, by rw [silent.gathers_eq_nil, List.append_nil]⟩

/-- the list only gets longer -/
theorem ends_collect_prefix (p : Prog I α) (s : σ) (found : List γ) (events : List Event) :
    p.Ends (collect serve brings) (fun _ t _ => found <+: t.2) (s, found) events :=
  (ends_collect p _ s found events).2 (ends_of p (fun _ _ _ => List.prefix_append _ _) s events)

end Collect

end Prog

theorem Op.follows_ask_bind {P : Protocol service σ} {Q : Except Failure α → σ → Prop} {s : σ} (c : Call)
    (f : c.Reply → Op α) : (Op.ask c >>= f).Follows P Q s ↔
      P.allows c s ∧ ∀ r t, P.leads c s r t → (f r).Follows P Q t := Iff.rfl

theorem Op.follows_account {P : Protocol service σ} {p : Op α} {Q : Except Failure α → σ → Prop} {s : σ}
    {kind : Fault → Bool} {event : Event} {task : Task} (h : p.Follows P Q s)
    (error : ∀ e e' t, Q (.error e) t → Q (.error e') t) : (Op.account kind event task p).Follows P Q s := by
  refine h.rescue (fun _ _ ha => ha) fun e t he => ?_
  cases e with
  | fault f =>
    dsimp only
    split
    · exact error _ _ t he
    · exact he
  | _ => exact he

/-! ## Programs that may fail -/

section Yields

variable {x : σ} {J : α → σ → Prop}

/-- what is asked of a program that ends well -/
def Yields (J : α → σ → Prop) : Except Failure α → σ → Prop :=
  fun r x => ∀ a, r = .ok a → J a x

theorem yields_error (e : Failure) : Yields J (.error e) x :=
  fun _ failed => by cases failed

theorem yields_ok {a : α} (h : J a x) : Yields J (.ok a) x := by
  rintro _ ⟨⟩
  exact h

theorem Prog.Follows.yields {P : Protocol I σ} {p : Prog I α} {f : α → Prog I β} {K : β → σ → Prop}
    (h : p.Follows P (Yields J) x) (ok : ∀ a y, J a y → (f a).Follows P (Yields K) y) :
    (p >>= f).Follows P (Yields K) x :=
  h.bind (fun a y ha => ok a y (ha a rfl)) fun e _ _ => yields_error e

end Yields

/-! ## Crowds -/

/-- what is left of some programs, and what surrounds them all -/
structure Crowd (I : Interface) (σ : Type) where
  state : σ
  programs : List (Prog I Unit)

namespace Crowd

variable {serve : (c : I.Call) → σ → I.Reply c × σ} {c : Crowd I σ}

def turn (serve : (c : I.Call) → σ → I.Reply c × σ) (c : Crowd I σ) (i : Nat) : Crowd I σ :=
  match c.programs[i]?.bind (·.step? serve c.state) with
  | some (p, s) => ⟨s, c.programs.set i p⟩
  | none => c

def after (serve : (c : I.Call) → σ → I.Reply c × σ) (c : Crowd I σ) (turns : List Nat) : Crowd I σ :=
  turns.foldl (turn serve) c

theorem after_snoc (turns : List Nat) (i : Nat) : c.after serve (turns ++ [i]) = (c.after serve turns).turn serve i := by
  rw [after, List.foldl_append]
  rfl

/-- what one turn can be -/
inductive Turned (serve : (c : I.Call) → σ → I.Reply c × σ) (c : Crowd I σ) (i : Nat) : Crowd I σ → Prop
  /-- there is no such program, or it has ended -/
  | rests : Turned serve c i c
  | notes (e : Event) (next : Prog I Unit) (own : c.programs[i]? = some (.note e next)) :
    Turned serve c i ⟨c.state, c.programs.set i next⟩
  | calls (call : I.Call) (next : I.Reply call → Prog I Unit) (own : c.programs[i]? = some (.call call next)) :
    Turned serve c i ⟨(serve call c.state).2, c.programs.set i (next (serve call c.state).1)⟩

theorem turned (serve : (c : I.Call) → σ → I.Reply c × σ) (c : Crowd I σ) (i : Nat) :
    c.Turned serve i (c.turn serve i) := by
  unfold turn
  cases own : c.programs[i]? with
  | none => exact .rests
  | some p =>
    cases p with
    | done a => exact .rests
    | fail e => exact .rests
    | note e next => exact .notes e next own
    | call call next => exact .calls call next own

/-- what is left of a program after a turn: of another one it is the same -/
theorem programs_set {i j : Nat} {p q : Prog I Unit} (h : (c.programs.set i p)[j]? = some q) :
    i = j ∧ q = p ∨ i ≠ j ∧ c.programs[j]? = some q := by
  rw [List.getElem?_set] at h
  split at h
  case isTrue same =>
    split at h
    · exact .inl ⟨same, (Option.some.inj h).symm⟩
    · cases h
  case isFalse other => exact .inr ⟨other, h⟩

end Crowd

end Depot
