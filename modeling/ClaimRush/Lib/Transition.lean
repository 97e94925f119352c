import Mathlib.Logic.Relation

/-!
# Transition systems

A system is a set of initial states and a step relation.  An invariant that
holds initially and survives each step holds in every reachable state.
-/

namespace ClaimRush

/-- Initial states and steps. -/
structure TransitionSystem (σ : Type*) where
  init : σ → Prop
  step : σ → σ → Prop

namespace TransitionSystem

variable {σ : Type*} (T : TransitionSystem σ)

/-- States on some run of the system. -/
inductive Reachable : σ → Prop
  | init {s : σ} (h : T.init s) : Reachable s
  | step {s s' : σ} (hs : Reachable s) (h : T.step s s') : Reachable s'

variable {T}

/-- The induction rule for invariants. -/
theorem Reachable.invariant {I : σ → Prop} (hinit : ∀ s, T.init s → I s)
    (hstep : ∀ s s', T.Reachable s → I s → T.step s s' → I s') {s : σ} (hs : T.Reachable s) :
    I s := by
  induction hs with
  | init h => exact hinit _ h
  | step hs h ih => exact hstep _ _ hs ih h

/-- A run of steps from a reachable state stays reachable. -/
theorem Reachable.run {s s' : σ} (hs : T.Reachable s)
    (hrun : Relation.ReflTransGen T.step s s') : T.Reachable s' := by
  induction hrun with
  | refl => exact hs
  | tail _ h ih => exact ih.step h

end TransitionSystem

end ClaimRush
