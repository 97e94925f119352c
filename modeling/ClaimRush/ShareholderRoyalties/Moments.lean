import ClaimRush.ShareholderRoyalties.Settlement

/-!
# Moments of a run

A run of the joint system passes through a moment after each effect of each
call.  What it credits to a user and what its flushes allot to the locks of the
user are sums over the moves from one moment to the next.
-/

open Function

namespace ClaimRush.VeClaimNFT

open Constants

/-- Weight with which the lock takes part in a flush at `ts`. -/
def Lock.royaltyWeight (l : Lock) (ts : ℕ) : ℕ :=
  if l.autoMax then l.amount * SHAREHOLDER_WEIGHT_SCALE
  else if ts < l.lockEnd then
    l.amount * SHAREHOLDER_WEIGHT_SCALE / MAX_LOCK_DURATION * (l.lockEnd - ts)
  else 0

theorem Lock.royaltyWeight_eq (l : Lock) : l.royaltyWeight = l.weightAt := by
  funext ts
  unfold Lock.royaltyWeight
  split_ifs with hauto hlive
  · rw [Lock.weightAt_autoMax hauto, SHAREHOLDER_WEIGHT_SCALE_eq]
  · rw [Lock.weightAt_decaying (by simpa using hauto), ShareholderRoyalties.floorSlope_eq]
  · rw [Lock.weightAt_decaying (by simpa using hauto)]
    dsimp only
    rw [Nat.sub_eq_zero_of_le (not_lt.mp hlive), Nat.mul_zero]

end ClaimRush.VeClaimNFT

namespace ClaimRush.ShareholderRoyalties

open Constants VeClaimNFT RoyaltiesState ClaimRush.Distribution

/-! ## Runs -/

/-- The two contracts at one moment of a run, in a block at `time`. -/
structure Moment where
  time : ℕ
  holdings : VeState × RoyaltiesState

namespace Moment

variable (m : Moment)

abbrev ve : VeState := m.holdings.1

abbrev royalties : RoyaltiesState := m.holdings.2

end Moment

/-- The moments after each of the effects that lead from `x` to `y` in one
block, newest first. -/
inductive Trace (nowTs : ℕ) (x : VeState × RoyaltiesState) :
    List Moment → VeState × RoyaltiesState → Prop
  | refl : Trace nowTs x [] x
  | tail {ms : List Moment} {y z : VeState × RoyaltiesState} (h : Trace nowTs x ms y)
      (heffect : Effect nowTs y z) : Trace nowTs x (⟨nowTs, z⟩ :: ms) z

/-- The moments of a run from the deployment to the configuration, newest first. -/
inductive Run : Config → List Moment → Prop
  | deploy {c : Config} (h : system.init c) : Run c [⟨c.now, c.world.holdings⟩]
  | op {c : Config} {ms ms' : List Moment} {w : Worlds} (h : Run c ms) (call : Call) (op : Op)
      (hnow : c.now ≤ call.timestamp) (hexec : exec call c.world op = .ok w)
      (htrace : Trace call.timestamp c.world.holdings ms' w.holdings) :
      Run ⟨call.timestamp, w⟩ (ms' ++ ms)

theorem Trace.of_effects {nowTs : ℕ} {x y : VeState × RoyaltiesState} (h : Effects nowTs x y) :
    ∃ ms, Trace nowTs x ms y := by
  induction h with
  | refl => exact ⟨[], .refl⟩
  | tail _ heffect ih =>
      obtain ⟨ms, hms⟩ := ih
      exact ⟨_, hms.tail heffect⟩

/-- Every reachable configuration ends a run. -/
theorem reachable_run_moments {c : Config} (hc : system.Reachable c) : ∃ ms, Run c ms := by
  have hsound (c : Config) (hc : system.Reachable c) : Sound c.world c.now :=
    (reachable_induction (I := fun _ _ ↦ True) (fun _ _ _ _ _ ↦ trivial)
      (fun _ _ _ _ _ ↦ trivial) (fun _ _ _ _ _ ↦ trivial) hc).1
  induction hc with
  | init h => exact ⟨_, .deploy h⟩
  | @step c c' hc hstep ih =>
      obtain ⟨ms, hms⟩ := ih
      cases hstep with
      | op call op hnow hexec =>
          have hsound := hsound c hc
          have hfollows := (exec_follows ⟨hsound.accounted, hsound.le_now.trans hnow⟩ op).of_ok
            hexec
          obtain ⟨ms', htrace⟩ := Trace.of_effects hfollows.effects
          exact ⟨_, hms.op call op hnow hexec htrace⟩

/-- The induction rule for runs: what one more effect keeps holds of all moments
of a run together. -/
theorem Run.induction {I : Moment → List Moment → Prop}
    (hinit : ∀ c : Config, system.init c → I ⟨c.now, c.world.holdings⟩ [])
    (hstep : ∀ m ms t y, I m ms → m.time ≤ t → Effect t m.holdings y → I ⟨t, y⟩ (m :: ms))
    {c : Config} {ms : List Moment} (h : Run c ms) :
    ∃ m rest, ms = m :: rest ∧ m.holdings = c.world.holdings ∧ m.time ≤ c.now ∧ I m rest := by
  induction h with
  | deploy h => exact ⟨_, [], rfl, rfl, le_rfl, hinit _ h⟩
  | @op c ms ms' w h call op hnow hexec htrace ih =>
      obtain ⟨m, rest, rfl, hholdings, htime, hI⟩ := ih
      clear hexec h
      generalize w.holdings = y at htrace ⊢
      dsimp only
      induction htrace with
      | refl => exact ⟨m, rest, rfl, hholdings, htime.trans hnow, hI⟩
      | tail h heffect ih =>
          obtain ⟨m', rest', heq, hy, htime', hI'⟩ := ih
          refine ⟨_, m' :: rest', ?_, rfl, le_rfl, hstep m' rest' _ _ hI' htime' (hy ▸ heffect)⟩
          rw [List.cons_append, heq]

/-! ## What a run credits and allots -/

/-- The moments after and before each effect of a run. -/
def moves (ms : List Moment) : List (Moment × Moment) := ms.zip ms.tail

/-- Wei that checkpoints have added to the stored balance of the user. -/
def credited (user : Address) (ms : List Moment) : ℕ :=
  ((moves ms).map fun p ↦
    p.1.royalties.claimableEthStored user - p.2.royalties.claimableEthStored user).sum

/-- Total weight of the locks of the user in a flush at `ts`. -/
def userWeight (s : VeState) (user : Address) (ts : ℕ) : ℕ :=
  ((getShareholderLockParams s user).map fun l ↦ l.royaltyWeight ts).sum

/-- Growth of the index in each flush, with the weight of the user in it. -/
def flushes (user : Address) (ms : List Moment) : List (ℕ × ℕ) :=
  ((moves ms).filter fun p ↦ p.2.royalties.ethPerVe < p.1.royalties.ethPerVe).map fun p ↦
    (p.1.royalties.ethPerVe - p.2.royalties.ethPerVe, userWeight p.2.ve user p.1.time)

/-- What the flushes allot to the user, in units of `1 / SHAREHOLDER_ACC` wei. -/
def entitled (user : Address) (ms : List Moment) : ℕ :=
  ((flushes user ms).map fun f ↦ f.1 * f.2).sum

/-- The clamp has not bound, nothing has been evicted, and locks that the Furnace
itself holds change only once it has been paid up to the current index. -/
structure Regular (user : Address) (ms : List Moment) : Prop where
  unclamped : ∀ m ∈ ms, m.royalties.ghost.clampedAccrual = 0
  unevicted : ∀ m ∈ ms, m.royalties.overflowRingHead = 0
  furnace : ∀ p ∈ moves ms, p.2.ve.furnace = user → ∀ id, p.2.ve.owners id = user →
    p.2.royalties.IsSettled user ∨
      (p.2.ve.locks id).SameWeight (p.1.ve.locks id) ∧ p.1.ve.owners id = user

variable {user : Address} {m m' : Moment} {ms : List Moment}

theorem moves_cons : moves (m' :: m :: ms) = (m', m) :: moves (m :: ms) := rfl

theorem credited_cons : credited user (m' :: m :: ms) =
    m'.royalties.claimableEthStored user - m.royalties.claimableEthStored user +
      credited user (m :: ms) := by
  simp [credited, moves_cons]

theorem flushes_cons_of_same (h : m'.royalties.ethPerVe = m.royalties.ethPerVe) :
    flushes user (m' :: m :: ms) = flushes user (m :: ms) := by
  simp [flushes, moves_cons, h]

theorem entitled_cons_of_same (h : m'.royalties.ethPerVe = m.royalties.ethPerVe) :
    entitled user (m' :: m :: ms) = entitled user (m :: ms) := by
  unfold entitled
  rw [flushes_cons_of_same h]

theorem entitled_cons_of_flush {delta : ℕ} (hdelta : 0 < delta)
    (h : m'.royalties.ethPerVe = m.royalties.ethPerVe + delta) :
    entitled user (m' :: m :: ms) =
      delta * userWeight m.ve user m'.time + entitled user (m :: ms) := by
  simp [entitled, flushes, moves_cons, h, hdelta]

theorem Regular.tail (h : Regular user (m :: ms)) : Regular user ms where
  unclamped m' hm' := h.unclamped m' (List.mem_cons_of_mem m hm')
  unevicted m' hm' := h.unevicted m' (List.mem_cons_of_mem m hm')
  furnace p hp := by
    cases ms with
    | nil => cases hp
    | cons m' ms => exact h.furnace p (List.mem_cons_of_mem _ hp)

end ClaimRush.ShareholderRoyalties
