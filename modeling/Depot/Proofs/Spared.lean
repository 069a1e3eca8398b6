/-
Runs that no fault strikes.

Faults may be scheduled that strike none of the calls a run makes, and rows may be locked that none of its statements
would delete. Such a run goes as it would with no fault and no lock around (`ends_calmed`), so what is known of calm
surroundings is known of it.
-/
import Depot.Proofs.Replies
import Depot.Proofs.Run

namespace Depot

variable {w : World} {α : Type} {p : Op α} {events : List Event}

namespace World

/-- the same surroundings without scheduled faults and locks -/
def calmed (w : World) : World :=
  { w with strikes := [], refusals := [], locked := [] }

theorem calm_calmed (w : World) : Calm w.calmed := ⟨rfl, rfl, rfl⟩

theorem calmed_of_calm (calm : Calm w) : w.calmed = w := by
  obtain ⟨strikes, refusals, locked⟩ := calm
  cases w
  simp_all [calmed]

theorem calmed_stores (w : World) : SameStores w w.calmed := ⟨rfl, rfl⟩

/-- a call is answered as it would be without scheduled faults and locks -/
def Spares (w : World) (c : Call) : Prop :=
  serve c w.calmed = ((serve c w).1, (serve c w).2.calmed)

end World

open World

namespace Prog

/-- no fault and no lock makes a difference to a call of a run -/
def Spared {α : Type} : Prog service α → World → Prop
  | .done _, _ => True
  | .fail _, _ => True
  | .note _ next, w => next.Spared w
  | .call c next, w => w.Spares c ∧ (next (serve c w).1).Spared (serve c w).2

/-- **A run that no fault strikes goes as a run without faults.** -/
theorem Spared.ends_calmed {p : Prog service α} {Q : Goal World α} (h : p.Spared w) :
    p.Ends serve Q w.calmed events ↔ p.Ends serve (fun r t more => Q r t.calmed more) w events := by
  induction p generalizing w events with
  | done a => rfl
  | fail e => rfl
  | note e next ih => exact ih h
  | call c next ih =>
    obtain ⟨spared, later⟩ := h
    simp only [Ends]
    rw [show serve c w.calmed = _ from spared]
    exact ih _ later

theorem spared_of_calm (p : Prog service α) (calm : Calm w) : p.Spared w := by
  induction p generalizing w with
  | done a => trivial
  | fail e => trivial
  | note e next ih => exact ih calm
  | call c next ih =>
    have later := serve_calm c calm
    refine ⟨?_, ih _ later⟩
    rw [Spares, calmed_of_calm calm, calmed_of_calm later]

end Prog

end Depot
