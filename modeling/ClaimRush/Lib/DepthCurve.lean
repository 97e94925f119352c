import Mathlib.Tactic.Ring
import Mathlib.Tactic.Linarith

/-!
# Deposits along a depth curve

A pool with the reserve `r` and the depth `v` pays at most `r * p / (v + p)` for a
deposit of `p`, and its depth grows by at least `p`.  Deposits one after the other
then leave at least what one deposit of their sum leaves.
-/

namespace ClaimRush.DepthCurve

/-- A pool that started from `r` and `v` has taken deposits of `s` together. -/
structure Slid (r v s r' v' : ℕ) : Prop where
  reserve : r * v ≤ r' * (v + s)
  depth : v + s ≤ v'

variable {r v s r₁ v₁ r₂ v₂ p : ℕ}

theorem Slid.refl (h : v ≤ v₁) : Slid r v 0 r v₁ :=
  ⟨le_rfl, h⟩

/-- One more deposit; a pool may give less than the curve and grow deeper. -/
theorem Slid.step (h : Slid r v s r₁ v₁) (hreserve : r₁ * v₁ ≤ r₂ * (v₁ + p))
    (hdepth : v₁ + p ≤ v₂) (hpos : 0 < v₁) : Slid r v (s + p) r₂ v₂ := by
  refine ⟨?_, ?_⟩
  · have hdeeper : (v + s) * (v₁ + p) ≤ v₁ * (v + (s + p)) := by
      have hmul : (v + s) * p ≤ v₁ * p := Nat.mul_le_mul_right p h.depth
      calc (v + s) * (v₁ + p) = v₁ * (v + s) + (v + s) * p := by ring
        _ ≤ v₁ * (v + s) + v₁ * p := Nat.add_le_add_left hmul _
        _ = v₁ * (v + (s + p)) := by ring
    refine Nat.le_of_mul_le_mul_right ?_ (Nat.add_pos_left hpos p)
    calc r * v * (v₁ + p) ≤ r₁ * (v + s) * (v₁ + p) := Nat.mul_le_mul_right _ h.reserve
      _ = r₁ * ((v + s) * (v₁ + p)) := by ring
      _ ≤ r₁ * (v₁ * (v + (s + p))) := Nat.mul_le_mul_left _ hdeeper
      _ = r₁ * v₁ * (v + (s + p)) := by ring
      _ ≤ r₂ * (v₁ + p) * (v + (s + p)) := Nat.mul_le_mul_right _ hreserve
      _ = r₂ * (v + (s + p)) * (v₁ + p) := by ring
  · have hdepth₁ := h.depth
    omega

/-- The payout of one deposit leaves the reserve on the curve. -/
theorem mul_le_of_payout {paid : ℕ} (h : paid ≤ r * p / (v + p)) (hle : r ≤ r₁ + paid) :
    r * v ≤ r₁ * (v + p) := by
  have hpaid : paid * (v + p) ≤ r * p := (Nat.mul_le_mul_right _ h).trans (Nat.div_mul_le_self _ _)
  have hreserve : r * (v + p) ≤ (r₁ + paid) * (v + p) := Nat.mul_le_mul_right _ hle
  have hleft : r * (v + p) = r * v + r * p := Nat.mul_add r v p
  have hright : (r₁ + paid) * (v + p) = r₁ * (v + p) + paid * (v + p) := Nat.add_mul _ _ _
  omega

/-- What deposits of at most `p` take, against one deposit of `p`. -/
theorem Slid.taken_le_single (h : Slid r v s r₁ v₁) (hle : r₁ ≤ r) (hs : s ≤ p) (hpos : 0 < v) :
    r - r₁ ≤ r * p / (v + p) := by
  obtain ⟨n, rfl⟩ := Nat.exists_eq_add_of_le hle
  rw [Nat.add_sub_cancel_left, Nat.le_div_iff_mul_le (Nat.add_pos_left hpos p)]
  have hsum : (r₁ + n) * (v + s) = (r₁ + n) * v + (r₁ + n) * s := Nat.mul_add _ _ _
  have hsplit : (r₁ + n) * (v + s) = r₁ * (v + s) + n * v + n * s := by ring
  have hreserve := h.reserve
  have hmore : r₁ * s ≤ r₁ * p := Nat.mul_le_mul_left _ hs
  have hparts : (r₁ + n) * s = r₁ * s + n * s := Nat.add_mul _ _ _
  calc n * (v + p) = n * v + n * p := Nat.mul_add _ _ _
    _ ≤ r₁ * p + n * p := Nat.add_le_add_right (by omega) _
    _ = (r₁ + n) * p := (Nat.add_mul _ _ _).symm

/-- What deposits of `s` take, against one deposit that is at most one smaller, in
a pool whose reserve is at most five quarters of its depth. -/
theorem Slid.taken_le (h : Slid r v s r₁ v₁) (hle : r₁ ≤ r) (hs : s ≤ p + 1)
    (hratio : 4 * r ≤ 5 * v) (hpos : 0 < v) : r - r₁ ≤ r * p / (v + p) + 2 := by
  obtain ⟨n, rfl⟩ := Nat.exists_eq_add_of_le hle
  rw [Nat.add_sub_cancel_left]
  have htaken : n * (v + s) ≤ (r₁ + n) * s := by
    have hreserve := h.reserve
    have hsum : (r₁ + n) * (v + s) = (r₁ + n) * v + (r₁ + n) * s := Nat.mul_add _ _ _
    have hsplit : (r₁ + n) * (v + s) = r₁ * (v + s) + n * (v + s) := Nat.add_mul _ _ _
    omega
  obtain ⟨k, hk⟩ := Nat.exists_eq_add_of_le hs
  have hwider : n * (v + p + 1) ≤ (r₁ + n) * (p + 1) := by
    have hrest : n * k ≤ (r₁ + n) * k := Nat.mul_le_mul_right k (Nat.le_add_left n r₁)
    calc n * (v + p + 1) = n * (v + s) + n * k := by rw [Nat.add_assoc, hk]; ring
      _ ≤ (r₁ + n) * s + (r₁ + n) * k := Nat.add_le_add htaken hrest
      _ = (r₁ + n) * (p + 1) := by rw [hk]; ring
  have hfloor : (r₁ + n) * p < ((r₁ + n) * p / (v + p) + 1) * (v + p) :=
    (Nat.div_lt_iff_lt_mul (Nat.add_pos_left hpos p)).mp (Nat.lt_succ_self _)
  generalize (r₁ + n) * p / (v + p) = g at hfloor ⊢
  by_contra hgt
  have hmany : (g + 3) * (v + p + 1) ≤ n * (v + p + 1) := Nat.mul_le_mul_right _ (by omega)
  nlinarith

end ClaimRush.DepthCurve
