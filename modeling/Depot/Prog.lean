/-
Operations as programs: trees of calls to the world outside, with a continuation for every reply.

An `Interface` says which calls there are and what each is answered with. A `Prog` makes one call at a time and goes
on with the reply, puts events on record, and ends with a value or a failure. Since a program is data it can be run
against a state that answers its calls (`run`), or in turns with other programs, one call each (`step?`).

`run_bind`: running two programs one after the other is running the first and then the second where it succeeded.
`runFrom_rescue` and `runFrom_attempt`: a failure that is taken over, or made a value, keeps the state and the events.
-/
import Depot.Event

namespace Depot

/-- the calls that can be made, and the type of the reply to each -/
structure Interface where
  Call : Type
  Reply : Call → Type

inductive Prog (I : Interface) (α : Type) : Type where
  | done (a : α)
  | fail (e : Failure)
  | note (e : Event) (next : Prog I α)
  | call (c : I.Call) (next : I.Reply c → Prog I α)

namespace Prog

variable {I : Interface} {α β σ : Type}

def bind : Prog I α → (α → Prog I β) → Prog I β
  | .done a, f => f a
  | .fail e, _ => .fail e
  | .note e next, f => .note e (next.bind f)
  | .call c next, f => .call c fun r => (next r).bind f

instance : Monad (Prog I) where
  pure := .done
  bind := .bind

theorem bind_done (p : Prog I α) : p.bind .done = p := by
  induction p with
  | done a => rfl
  | fail e => rfl
  | note e next ih => simp only [bind, ih]
  | call c next ih => simp only [bind, ih]

theorem bind_assoc {γ : Type} (p : Prog I α) (f : α → Prog I β) (g : β → Prog I γ) :
    (p.bind f).bind g = p.bind fun a => (f a).bind g := by
  induction p with
  | done a => rfl
  | fail e => rfl
  | note e next ih => simp only [bind, ih]
  | call c next ih => simp only [bind, ih]

instance : LawfulMonad (Prog I) :=
  LawfulMonad.mk' (Prog I) bind_done (fun _ _ => rfl) bind_assoc

/-- a program whose failure another one takes over -/
def rescue : Prog I α → (Failure → Prog I α) → Prog I α
  | .done a, _ => .done a
  | .fail e, h => h e
  | .note e next, h => .note e (next.rescue h)
  | .call c next, h => .call c fun r => (next r).rescue h

/-- a program whose failure is its value -/
def attempt : Prog I α → Prog I (Except Failure α)
  | .done a => .done (.ok a)
  | .fail e => .done (.error e)
  | .note e next => .note e next.attempt
  | .call c next => .call c fun r => (next r).attempt

/-- a program that ends at once -/
def ofExcept : Except Failure α → Prog I α
  | .ok a => .done a
  | .error e => .fail e

def record (e : Event) : Prog I Unit :=
  .note e (.done ())

def ask (c : I.Call) : Prog I (I.Reply c) :=
  .call c .done

/-- ends with a reply; a fault in it is not accounted for -/
def ofReply : Except Fault α → Prog I α
  | .ok a => .done a
  | .error f => .fail (.fault f)

/-- how a run ended: its outcome, the state it left, and its events, the last one first -/
structure Run (σ α : Type) where
  outcome : Except Failure α
  state : σ
  record : List Event

/-- runs a program against a state that answers its calls, after the events so far -/
def runFrom (serve : (c : I.Call) → σ → I.Reply c × σ) : Prog I α → σ → List Event → Run σ α
  | .done a, s, record => ⟨.ok a, s, record⟩
  | .fail e, s, record => ⟨.error e, s, record⟩
  | .note e next, s, record => next.runFrom serve s (e :: record)
  | .call c next, s, record =>
    let (reply, s) := serve c s
    (next reply).runFrom serve s record

/-- runs a program against a state that answers its calls -/
def run (serve : (c : I.Call) → σ → I.Reply c × σ) (p : Prog I α) (s : σ) : Run σ α :=
  p.runFrom serve s []

/-- the first call or event of a program carried out, and what is left of the program; none if it has ended -/
def step? (serve : (c : I.Call) → σ → I.Reply c × σ) : Prog I α → σ → Option (Prog I α × σ)
  | .done _, _ => none
  | .fail _, _ => none
  | .note _ next, s => some (next, s)
  | .call c next, s =>
    let (reply, s) := serve c s
    some (next reply, s)

theorem runFrom_bind (serve : (c : I.Call) → σ → I.Reply c × σ) (p : Prog I α) (f : α → Prog I β) (s : σ)
    (record : List Event) :
    (p.bind f).runFrom serve s record =
      match p.runFrom serve s record with
      | ⟨.ok a, s, record⟩ => (f a).runFrom serve s record
      | ⟨.error e, s, record⟩ => ⟨.error e, s, record⟩ := by
  induction p generalizing s record with
  | done a => rfl
  | fail e => rfl
  | note e next ih => exact ih s (e :: record)
  | call c next ih => exact ih (serve c s).1 (serve c s).2 record

theorem runFrom_rescue (serve : (c : I.Call) → σ → I.Reply c × σ) (p : Prog I α) (h : Failure → Prog I α) (s : σ)
    (record : List Event) :
    (p.rescue h).runFrom serve s record =
      match p.runFrom serve s record with
      | ⟨.ok a, s, record⟩ => ⟨.ok a, s, record⟩
      | ⟨.error e, s, record⟩ => (h e).runFrom serve s record := by
  induction p generalizing s record with
  | done a => rfl
  | fail e => rfl
  | note e next ih => exact ih s (e :: record)
  | call c next ih => exact ih (serve c s).1 (serve c s).2 record

theorem runFrom_attempt (serve : (c : I.Call) → σ → I.Reply c × σ) (p : Prog I α) (s : σ) (record : List Event) :
    p.attempt.runFrom serve s record =
      match p.runFrom serve s record with
      | ⟨outcome, s, record⟩ => ⟨.ok outcome, s, record⟩ := by
  induction p generalizing s record with
  | done a => rfl
  | fail e => rfl
  | note e next ih => exact ih s (e :: record)
  | call c next ih => exact ih (serve c s).1 (serve c s).2 record

theorem run_bind (serve : (c : I.Call) → σ → I.Reply c × σ) (p : Prog I α) (f : α → Prog I β) (s : σ) :
    (p.bind f).run serve s =
      match p.run serve s with
      | ⟨.ok a, s, record⟩ => (f a).runFrom serve s record
      | ⟨.error e, s, record⟩ => ⟨.error e, s, record⟩ :=
  runFrom_bind serve p f s []

end Prog

end Depot
