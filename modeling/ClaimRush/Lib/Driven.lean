import ClaimRush.Lib.Outcome
import ClaimRush.Lib.Transition
import Mathlib.Data.List.Chain

/-!
# Systems driven by calls

A state machine that executes calls in the order of their times.  A call that
reverts leaves no trace, so a run is a sequence of calls that return.
-/

open Relation

namespace ClaimRush

universe v

variable {σ κ : Type} {ε : Type v}

/-- A state and the time of the last call. -/
structure Timed (σ : Type) where
  now : ℕ
  state : σ

/-- The system that starts in a state of `init` and executes calls. -/
def driven (init : σ → Prop) (time : κ → ℕ) (exec : κ → σ → Except ε σ) :
    TransitionSystem (Timed σ) where
  init c := init c.state
  step c c' := ∃ call, c.now ≤ time call ∧ exec call c.state = .ok c'.state ∧ c'.now = time call

/-- Execute calls in turn. -/
def runCalls (exec : κ → σ → Except ε σ) : List κ → σ → Except ε σ
  | [], s => .ok s
  | call :: rest, s => do runCalls exec rest (← exec call s)

variable {init : σ → Prop} {time : κ → ℕ} {exec : κ → σ → Except ε σ}

/-- What each call keeps, all runs keep. -/
theorem driven_invariant {I : σ → Prop} (hinit : ∀ s, init s → I s)
    (hexec : ∀ call s, I s → Returns I (exec call s)) {c : Timed σ}
    (hc : (driven init time exec).Reachable c) : I c.state := by
  refine hc.invariant (I := fun c ↦ I c.state) (fun s ↦ hinit s.state) ?_
  rintro s s' - hs ⟨call, -, hok, -⟩
  exact (hexec call s.state hs).of_ok hok

/-- A run is cut at any of its calls. -/
theorem runCalls_append {s s' : σ} {calls rest : List κ} :
    runCalls exec (calls ++ rest) s = .ok s' ↔
      ∃ s₁, runCalls exec calls s = .ok s₁ ∧ runCalls exec rest s₁ = .ok s' := by
  induction calls generalizing s with
  | nil => simp [runCalls]
  | cons call calls ih =>
      simp only [List.cons_append, runCalls, bind_eq_ok_iff, ih]
      constructor
      · rintro ⟨s₂, hcall, s₁, hcalls, hrest⟩
        exact ⟨s₁, ⟨s₂, hcall, hcalls⟩, hrest⟩
      · rintro ⟨s₁, ⟨s₂, hcall, hcalls⟩, hrest⟩
        exact ⟨s₂, hcall, s₁, hcalls, hrest⟩

theorem runCalls_concat {s s' : σ} {calls : List κ} {call : κ} :
    runCalls exec (calls ++ [call]) s = .ok s' ↔
      ∃ s₁, runCalls exec calls s = .ok s₁ ∧ exec call s₁ = .ok s' := by
  simp [runCalls_append, runCalls, bind_eq_ok_iff]

/-- Calls in successive blocks are a run of any system that takes each of them as a step. -/
theorem calls_run {step : σ → σ → Prop} (now : σ → ℕ)
    (hstep : ∀ call s s', now s ≤ time call → exec call s = .ok s' →
      step s s' ∧ now s' = time call)
    {s s' : σ} {calls : List κ} (hrun : runCalls exec calls s = .ok s')
    (hsorted : (now s :: calls.map time).IsChain (· ≤ ·)) : ReflTransGen step s s' := by
  induction calls generalizing s with
  | nil =>
      obtain rfl := Except.ok.inj hrun
      exact .refl
  | cons call calls ih =>
      obtain ⟨s₁, hexec, hrest⟩ := bind_eq_ok_iff.mp hrun
      obtain ⟨hle, hsorted⟩ := List.isChain_cons_cons.mp hsorted
      obtain ⟨hone, hnow⟩ := hstep call s s₁ hle hexec
      exact .head hone (ih hrest (hnow ▸ hsorted))

/-- A sequence of calls in successive blocks is a run. -/
theorem driven_run {s s' : σ} {now : ℕ} {calls : List κ} (hrun : runCalls exec calls s = .ok s')
    (hsorted : (now :: calls.map time).IsChain (· ≤ ·)) :
    ReflTransGen (driven init time exec).step ⟨now, s⟩ ⟨(calls.map time).getLastD now, s'⟩ := by
  induction calls generalizing now s with
  | nil =>
      obtain rfl := Except.ok.inj hrun
      exact .refl
  | cons call calls ih =>
      obtain ⟨s₁, hexec, hrest⟩ := bind_eq_ok_iff.mp hrun
      obtain ⟨hle, hsorted⟩ := List.isChain_cons_cons.mp hsorted
      rw [List.map_cons, List.getLastD_cons]
      exact .head ⟨call, hle, hexec, rfl⟩ (ih hrest hsorted)

/-- A computed run of calls from an initial state, for a checked property of its
last state. -/
theorem driven_witness (s : σ) (calls : List κ) (P : σ → Bool) (hs : init s)
    (hsorted : (0 :: calls.map time).IsChain (· ≤ ·))
    (hrun : (runCalls exec calls s).toOption.any P = true) :
    ∃ c, (driven init time exec).Reachable c ∧ P c.state = true := by
  cases h : runCalls exec calls s with
  | error e =>
      rw [h] at hrun
      cases hrun
  | ok s' =>
      rw [h] at hrun
      exact ⟨_, (TransitionSystem.Reachable.init hs).run (driven_run h hsorted), hrun⟩

end ClaimRush
