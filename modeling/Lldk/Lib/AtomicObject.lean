import Lldk.Lib.Reduction

/-!
Objects whose calls take effect at one instant.

* A `Spec` says which results a call may have, and what becomes of the object.
* `Effects`: threads call it and return, and between the two there is one instant at which the call
  takes its effect. A history of calls and results is `Linearizable` if there are such instants.
* `linearizable_of_simulation`: code whose every step comes to some effects has linearizable
  histories only.
-/

namespace Lib.Threads

open Lib.Trace

variable {ι C α ω σ ε : Type}

abbrev Spec (ω C α : Type) := ω → C → α → ω → Prop

/-- How far a call has got. -/
inductive Status (C α : Type)
  | idle
  | called (call : C)
  | done (a : α)

structure Atomic (ι ω C α : Type) where
  object : ω
  status : ι → Status C α

/-- Before the first call. -/
def Atomic.start (o : ω) : Atomic ι ω C α := ⟨o, fun _ => .idle⟩

variable [DecidableEq ι] {O : Spec ω C α} {s s' s'' : Atomic ι ω C α} {t : ι}
  {h h' : List (Seen ι C α)}

inductive Effects (O : Spec ω C α) :
    Atomic ι ω C α → List (Seen ι C α) → Atomic ι ω C α → Prop
  | refl (s : Atomic ι ω C α) : Effects O s [] s
  | call {s s' : Atomic ι ω C α} {t : ι} {call : C} {h : List (Seen ι C α)}
    (hs : s.status t = .idle)
    (hrest : Effects O ⟨s.object, Function.update s.status t (.called call)⟩ h s') :
    Effects O s (.called t call :: h) s'
  | effect {s s' : Atomic ι ω C α} {t : ι} {call : C} {a : α} {o : ω} {h : List (Seen ι C α)}
    (hs : s.status t = .called call) (ho : O s.object call a o)
    (hrest : Effects O ⟨o, Function.update s.status t (.done a)⟩ h s') : Effects O s h s'
  | ret {s s' : Atomic ι ω C α} {t : ι} {a : α} {h : List (Seen ι C α)}
    (hs : s.status t = .done a)
    (hrest : Effects O ⟨s.object, Function.update s.status t .idle⟩ h s') :
    Effects O s (.returned t a :: h) s'

/-- There is an instant between each call and its result at which the call could have happened. -/
def Linearizable (O : Spec ω C α) (o : ω) (h : List (Seen ι C α)) : Prop :=
  ∃ s, Effects O (.start o) h s

theorem Effects.trans (H : Effects O s h s') (H' : Effects O s' h' s'') :
    Effects O s (h ++ h') s'' := by
  induction H with
  | refl s => exact H'
  | call hs _ ih => exact .call hs (ih H')
  | effect hs ho _ ih => exact .effect hs ho (ih H')
  | ret hs _ ih => exact .ret hs (ih H')

/-- **A simulation** by the object. -/
theorem effects_of_simulation {step : Step σ (Move ι C) (Option α) ε}
    (R : σ → Atomic ι ω C α → Prop)
    (hsim : ∀ c s move c' out, R c s → step c move = .ok (c', out) →
      ∃ s', Effects O s (seen move out) s' ∧ R c' s')
    {c c' : σ} (hR : R c s) {moves : List (Move ι C)} {outs : List (Option α)}
    (h : run step c moves = .ok (c', outs)) :
    ∃ s', Effects O s (history moves outs) s' ∧ R c' s' := by
  induction moves generalizing c s outs with
  | nil =>
    cases h
    exact ⟨s, .refl s, hR⟩
  | cons move moves ih =>
    obtain ⟨c₁, out, outs', hstep, hrun, rfl⟩ := run_cons_eq_ok.mp h
    obtain ⟨s₁, H, hR₁⟩ := hsim c s move c₁ out hR hstep
    obtain ⟨s', H', hR'⟩ := ih hR₁ hrun
    exact ⟨s', H.trans H', hR'⟩

theorem linearizable_of_simulation {step : Step σ (Move ι C) (Option α) ε}
    (R : σ → Atomic ι ω C α → Prop)
    (hsim : ∀ c s move c' out, R c s → step c move = .ok (c', out) →
      ∃ s', Effects O s (seen move out) s' ∧ R c' s')
    {c c' : σ} {o : ω} (hR : R c (.start o)) {moves : List (Move ι C)} {outs : List (Option α)}
    (h : run step c moves = .ok (c', outs)) : Linearizable O o (history moves outs) :=
  (effects_of_simulation R hsim hR h).imp fun _ => And.left

end Lib.Threads
