import ClaimRush.Furnace.System

/-!
# What the stream and the drip leave alone
-/

namespace ClaimRush.Furnace

theorem BONUS_DECAY_WINDOW_pos : 0 < Constants.BONUS_DECAY_WINDOW := by
  simp [Constants.BONUS_DECAY_WINDOW]

variable {S : Type} (call : Call) (w : World S)

theorem accrueLpStream_rest :
    Returns (fun r ↦ ∃ stream events ghost claim, claim.totalSupply = w.claim.totalSupply ∧
        r.1 = { furnace := { w.furnace with stream := stream, events := events, ghost := ghost }
                base := { w.base with claim := claim } }) (accrueLpStream call w) := by
  unfold accrueLpStream
  apply Returns.ite
  · exact fun _ ↦ ⟨_, _, _, _, rfl, rfl⟩
  intro _
  apply Returns.ite
  · exact fun _ ↦ ⟨_, _, _, _, rfl, rfl⟩
  intro _
  apply Returns.ite
  · exact fun _ ↦ ⟨_, _, _, _, rfl, rfl⟩
  intro _
  generalize (if call.timestamp < w.furnace.stream.finish then call.timestamp
    else w.furnace.stream.finish) = t
  apply Returns.ite
  · exact fun _ ↦ ⟨_, _, _, _, rfl, rfl⟩
  intro _
  refine Returns.seq fun streamed _ ↦ Returns.seq fun claim hclaim ↦ ?_
  have hsupply := (ClaimToken.transfer_eq_ok hclaim).totalSupply
  choose events hevents using notify_eq call
  rw [hevents]
  change ∃ stream events ghost claim, _
  by_cases hend : t ≥ w.furnace.stream.finish
  · simp only [if_pos hend]
    exact ⟨_, _, _, _, hsupply, rfl⟩
  · simp only [if_neg hend]
    exact ⟨_, _, _, _, hsupply, rfl⟩

theorem overflowDrip_rest (f : FurnaceState) :
    Returns (fun f' ↦ ∃ stream events ghost reserve last, call.timestamp ≤ last ∧
        (call.timestamp ≤ f.lastLpOverflowDripUpdate → reserve = f.furnaceReserve) ∧
        f' = { f with
          stream := stream
          events := events
          ghost := ghost
          furnaceReserve := reserve
          lastLpOverflowDripUpdate := last }) (overflowDrip call f) := by
  unfold overflowDrip
  apply Returns.ite
  · exact fun hpast ↦ ⟨_, _, _, _, _, hpast, fun _ ↦ rfl, rfl⟩
  intro hpast
  apply Returns.ite
  · exact fun _ ↦ ⟨_, _, _, _, _, le_rfl, fun _ ↦ rfl, rfl⟩
  intro _
  apply Returns.ite
  · exact fun _ ↦ ⟨_, _, _, _, _, le_rfl, fun _ ↦ rfl, rfl⟩
  intro _
  refine Returns.seq fun p _ ↦ ?_
  apply Returns.ite
  · exact fun _ ↦ ⟨_, _, _, _, _, le_rfl, fun _ ↦ rfl, rfl⟩
  intro _
  refine Returns.seq fun accrued _ ↦ ?_
  apply Returns.ite
  · exact fun _ ↦ ⟨_, _, _, _, _, le_rfl, fun _ ↦ rfl, rfl⟩
  intro _
  refine Outcome.bind (fundLpStreamInternal_rest call _ _) ?_
  rintro f' ⟨stream, events, ghost, rfl⟩
  exact Returns.guard fun _ ↦ ⟨_, _, _, _, _, le_rfl, fun hpast' ↦ absurd hpast' hpast, rfl⟩

/-- An accrual with its drip; at a time at which it has been done, the reserve
stays. -/
theorem accrueLpOverflowDrip_rest :
    Returns (fun r ↦ ∃ stream events ghost reserve last claim, call.timestamp ≤ last ∧
        (call.timestamp ≤ w.furnace.lastLpOverflowDripUpdate →
          reserve = w.furnace.furnaceReserve) ∧
        claim.totalSupply = w.claim.totalSupply ∧
        r.1 = { furnace := { w.furnace with
                  stream := stream
                  events := events
                  ghost := ghost
                  furnaceReserve := reserve
                  lastLpOverflowDripUpdate := last }
                base := { w.base with claim := claim } }) (accrueLpOverflowDrip call w) := by
  unfold accrueLpOverflowDrip
  refine Outcome.bind (accrueLpStream_rest call w) ?_
  rintro ⟨w₁, streamed⟩ ⟨stream, events, ghost, claim, hsupply, rfl⟩
  refine Outcome.bind (overflowDrip_rest call _) ?_
  rintro f ⟨stream', events', ghost', reserve, last, hlast, hidle, rfl⟩
  exact ⟨_, _, _, _, _, _, hlast, hidle, hsupply, rfl⟩

/-- A backed reserve is not clamped. -/
theorem syncFurnaceReserve_backed {k : ℕ} (h : (w.account k).Backed) :
    syncFurnaceReserve call w = w := by
  have hle : w.furnace.furnaceReserve + w.furnace.stream.liability + k ≤ w.claimBalance := h
  unfold syncFurnaceReserve
  dsimp only
  rw [if_neg]
  split <;> omega

/-- The stream and the CLAIM of `w` beside the locks and the observed sellers of `w'`. -/
def World.beside (w w' : World S) : World S :=
  { furnace := { w.furnace with pendingSellSeller := w'.furnace.pendingSellSeller }
    base := { w'.base with claim := w.claim } }

/-- An accrual looks at the stream and the CLAIM only. -/
theorem accrueLpStream_beside (w' : World S) {r : World S × ℕ} (h : accrueLpStream call w = .ok r) :
    accrueLpStream call (w.beside w') = .ok (r.1.beside w', r.2) := by
  unfold accrueLpStream at h ⊢
  dsimp only [World.beside] at h ⊢
  generalize (if call.timestamp < w.furnace.stream.finish then call.timestamp
    else w.furnace.stream.finish) = t at h ⊢
  by_cases hvault : w.furnace.lpRewardsVault = 0
  · rw [if_pos hvault] at h ⊢
    obtain rfl := Except.ok.inj h
    rfl
  rw [if_neg hvault] at h ⊢
  by_cases hclosed : w.furnace.stream.rate = 0 ∨ w.furnace.stream.finish = 0
  · rw [if_pos hclosed] at h ⊢
    obtain rfl := Except.ok.inj h
    rfl
  rw [if_neg hclosed] at h ⊢
  by_cases hpast : call.timestamp ≤ w.furnace.stream.last
  · rw [if_pos hpast] at h ⊢
    obtain rfl := Except.ok.inj h
    rfl
  rw [if_neg hpast] at h ⊢
  by_cases hpaid : t ≤ w.furnace.stream.last
  · rw [if_pos hpaid] at h ⊢
    obtain rfl := Except.ok.inj h
    rfl
  rw [if_neg hpaid] at h ⊢
  obtain ⟨streamed, hstreamed, h⟩ := bind_eq_ok_iff.mp h
  obtain ⟨claim, hclaim, h⟩ := bind_eq_ok_iff.mp h
  obtain rfl := Except.ok.inj h
  refine bind_eq_ok_iff.mpr ⟨streamed, hstreamed, bind_eq_ok_iff.mpr ⟨claim, hclaim, ?_⟩⟩
  unfold notifyLpRewardsVaultBestEffort
  by_cases hend : t ≥ w.furnace.stream.finish
  · simp only [if_pos hend]
    split <;> rfl
  · simp only [if_neg hend]
    split <;> rfl

/-- The same storage over another lock contract. -/
def World.withVe (ve : VeClaimNFT.VeState) : World S := { w with base := { w.base with ve := ve } }

end ClaimRush.Furnace
