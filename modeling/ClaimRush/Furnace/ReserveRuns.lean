import ClaimRush.Furnace.Backing
import ClaimRush.Furnace.Rewire

/-!
# Runs with a backed reserve

What follows between and within the calls of a run from a reserve and a stream that
lie in the Furnace.
-/

namespace ClaimRush.Furnace

open Account

variable {S : Type} {port : VeClaimNFT.IShareholderRoyalties S}

/-- What a backed stream owes can be paid at any time. -/
theorem accrueLpStream_pays {w : World S} (call : Call) (hb : (w.account 0).Backed)
    (hscheduled : w.furnace.stream.scheduled < uint256Bound) (hself : w.furnace.self ≠ 0)
    (hvault : w.claim.isRestrictedRecipient w.furnace.lpRewardsVault = false) :
    ∃ r, accrueLpStream call w = .ok r := by
  unfold accrueLpStream
  dsimp only
  generalize ht : (if call.timestamp < w.furnace.stream.finish then call.timestamp
    else w.furnace.stream.finish) = t
  have hle : t ≤ w.furnace.stream.finish := by
    split at ht <;> omega
  have hdue : (t - w.furnace.stream.last) * w.furnace.stream.rate ≤ w.furnace.stream.scheduled :=
    Nat.mul_le_mul_right _ (Nat.sub_le_sub_right hle _)
  have hfunds : (t - w.furnace.stream.last) * w.furnace.stream.rate ≤
      w.claim.balanceOf w.furnace.self := by
    have hbacked : w.furnace.furnaceReserve + (w.furnace.stream.carry +
      w.furnace.stream.scheduled) + 0 ≤ w.claim.balanceOf w.furnace.self := hb
    omega
  by_cases hzero : w.furnace.lpRewardsVault = 0
  · exact ⟨_, if_pos hzero⟩
  rw [if_neg hzero]
  by_cases hclosed : w.furnace.stream.rate = 0 ∨ w.furnace.stream.finish = 0
  · exact ⟨_, if_pos hclosed⟩
  rw [if_neg hclosed]
  by_cases hpast : call.timestamp ≤ w.furnace.stream.last
  · exact ⟨_, if_pos hpast⟩
  rw [if_neg hpast]
  by_cases hpaid : t ≤ w.furnace.stream.last
  · exact ⟨_, if_pos hpaid⟩
  rw [if_neg hpaid]
  obtain ⟨claim, hclaim⟩ :=
    ClaimToken.transfer_ok_iff.mpr ⟨hself, hzero, hvault, hfunds⟩
  exact ⟨_, bind_eq_ok_iff.mpr ⟨_, uint256_eq_ok.mpr ⟨hdue.trans_lt hscheduled, rfl⟩,
    bind_eq_ok_iff.mpr ⟨claim, hclaim, rfl⟩⟩⟩

/-- In every run in which a credit is minted with its CLAIM, the reserve and all that
the stream still owes lie in the Furnace.  So a synchronisation never lowers the
reserve, neither between two calls nor after the drip of the next one, and the LP
vault can be paid at any time. -/
theorem reserve_backed {c : Timed (World S)} (hc : (systemOf port Op.Covered).Reachable c) :
    let f := c.state.furnace
    f.furnaceReserve + (f.stream.carry + (f.stream.finish - f.stream.last) * f.stream.rate) ≤
        c.state.claimBalance ∧
      (∀ call, syncFurnaceReserve call c.state = c.state) ∧
      (∀ call, c.now ≤ call.timestamp → Returns (fun r ↦ (r.1.account 0).Backed ∧
        syncFurnaceReserve call r.1 = r.1) (accrueLpOverflowDrip call c.state)) ∧
      (f.self ≠ 0 → c.state.claim.isRestrictedRecipient f.lpRewardsVault = false →
        ∀ call, ∃ r, accrueLpStream call c.state = .ok r) := by
  have hsound := reachable_sound (systemOf_reachable hc)
  have hbacked := reachable_backed hc
  refine ⟨hbacked, fun call ↦ syncFurnaceReserve_backed call _ hbacked, ?_, ?_⟩
  · intro call hle
    refine (accrueLpOverflowDrip_moves call c.state 0).weaken ?_
    rintro r ⟨hmoves, -⟩
    have hafter := Moves.backed hmoves (hsound.shaped.later hle) hbacked
    exact ⟨hafter, syncFurnaceReserve_backed call _ hafter⟩
  · exact fun hself hvault call ↦
      accrueLpStream_pays call hbacked hsound.shaped.scheduled_lt hself hvault

theorem reserve_backed_dripped : ∃ w : World Unit,
    0 < w.furnace.furnaceReserve ∧ 0 < w.furnace.stream.carry ∧
      w.furnace.furnaceReserve + (w.furnace.stream.carry +
        (w.furnace.stream.finish - w.furnace.stream.last) * w.furnace.stream.rate) ≤
        w.claimBalance ∧
      (∃ r, accrueLpStream (rewireCall 202000001 7) w = .ok r) := by
  have hok : ((runCalls (fun c w ↦ exec VeClaimNFT.acceptingPort c.1 w c.2) drippedCalls
      rewireWorld).toOption.any fun w ↦ decide (0 < w.furnace.furnaceReserve ∧
        0 < w.furnace.stream.carry ∧ w.furnace.self ≠ 0 ∧
        w.claim.isRestrictedRecipient w.furnace.lpRewardsVault = false)) = true := by
    decide +kernel
  cases hrun : runCalls (fun c w ↦ exec VeClaimNFT.acceptingPort c.1 w c.2) drippedCalls
      rewireWorld with
  | error e =>
      rw [hrun] at hok
      cases hok
  | ok w =>
      rw [hrun] at hok
      obtain ⟨hreserve, hcarry, hself, hvault⟩ := of_decide_eq_true hok
      have hinit : (systemOf VeClaimNFT.acceptingPort Op.Covered).Reachable ⟨1, rewireWorld⟩ :=
        .init ⟨3, 9, rewireWorld.base, by decide, rfl⟩
      have hreach := systemOf_run hinit hrun (by simp [drippedCalls, Op.Covered, Op.brought])
        (by simp [drippedCalls, rewireCall])
      obtain ⟨hbacked, -, -, hpays⟩ := reserve_backed hreach
      exact ⟨w, hreserve, hcarry, hbacked, hpays hself hvault _⟩

end ClaimRush.Furnace
