import Mathlib.Order.Interval.Finset.Nat
import Mathlib.Tactic.Common

/-!
# Signals over time

A signal that is sampled at recorded times holds its value until the next
sample.  The time that it was on in an interval is the number of its seconds at
which it was on.
-/

open Finset

namespace ClaimRush

/-- Samples of a signal, the newest first. -/
abbrev Timeline := List (ℕ × Bool)

namespace Timeline

/-- The last sample up to the time `τ`. -/
def on (l : Timeline) (τ : ℕ) : Bool := ((l.find? fun e ↦ decide (e.1 ≤ τ)).map Prod.snd).getD false

/-- Seconds of `[s, e)` at which the signal was on. -/
def onTime (l : Timeline) (s e : ℕ) : ℕ := #{τ ∈ Ico s e | l.on τ = true}

variable {l : Timeline} {t τ s e e' : ℕ} {b : Bool}

theorem on_cons_of_le (h : t ≤ τ) : on ((t, b) :: l) τ = b := by
  simp [on, h]

theorem on_cons_of_lt (h : τ < t) : on ((t, b) :: l) τ = on l τ := by
  simp [on, Nat.not_le.mpr h]

@[simp] theorem onTime_self (l : Timeline) (s : ℕ) : l.onTime s s = 0 := by
  simp [onTime]

/-- A later sample says nothing about the time before it. -/
theorem onTime_cons (h : e ≤ t) : onTime ((t, b) :: l) s e = l.onTime s e := by
  unfold onTime
  congr 1
  refine filter_congr fun τ hτ ↦ ?_
  rw [on_cons_of_lt ((mem_Ico.mp hτ).2.trans_le h)]

theorem onTime_add (l : Timeline) (hs : s ≤ e) (he : e ≤ e') :
    l.onTime s e' = l.onTime s e + l.onTime e e' := by
  unfold onTime
  rw [← Ico_union_Ico_eq_Ico hs he, filter_union]
  exact card_union_of_disjoint (disjoint_filter_filter (Ico_disjoint_Ico_consecutive s e e'))

/-- After the last sample the signal stays. -/
theorem onTime_last (h : t ≤ s) : onTime ((t, b) :: l) s e = if b = true then e - s else 0 := by
  have hon : ∀ τ ∈ Ico s e, on ((t, b) :: l) τ = b := fun τ hτ ↦
    on_cons_of_le (h.trans (mem_Ico.mp hτ).1)
  unfold onTime
  rw [filter_congr fun τ hτ ↦ by rw [hon τ hτ]]
  cases b
  · simp
  · simp

/-- Time passes after the last sample. -/
theorem onTime_advance (hs : s ≤ e) (ht : t ≤ e) (he : e ≤ e') :
    onTime ((t, b) :: l) s e' = onTime ((t, b) :: l) s e + if b = true then e' - e else 0 := by
  rw [onTime_add _ hs he, onTime_last ht]

end Timeline

end ClaimRush
