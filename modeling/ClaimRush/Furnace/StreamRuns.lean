import ClaimRush.Furnace.Frame
import ClaimRush.Furnace.Rewire

/-!
# Conservation of the LP stream

What was ever folded into the stream was paid to the vault, is carried or is
still scheduled.  A call changes when the vault is paid, never what is due for
the seconds before it.
-/

namespace ClaimRush.Furnace

open Constants Account

variable {S : Type} {now : ℕ} {a a' : Account}

/-- What went into the stream is accounted for, and its period ends a window
after the last funding. -/
structure Account.Conserved (a : Account) : Prop where
  funded_eq : a.ghost.funded = a.ghost.streamed + a.stream.liability
  finish_le : a.stream.finish ≤ a.ghost.fundedAt + LP_STREAM_WINDOW

theorem Account.Move.conserved (h : Move now a a') (hs : a.Shaped now) (hc : a.Conserved) :
    a'.Conserved := by
  cases h with
  | accrue hvault hfunds hpaid =>
      have hliability := a.stream.accrue_liability now
      have hfunded := hc.funded_eq
      refine ⟨?_, ?_⟩
      · dsimp only [accrued]
        omega
      · have hfinish := hc.finish_le
        rcases a.stream.accrue_finish now with heq | heq <;> dsimp only [accrued] <;> rw [heq]
        · exact hfinish
        · exact Nat.zero_le _
  | fund hvault hdue hamount hfits =>
      refine ⟨?_, le_rfl⟩
      have hfunded := hc.funded_eq
      dsimp only [Account.fund]
      rw [LinearStream.fund_liability hs.last_le hdue]
      omega
  | take h => exact ⟨hc.funded_eq, hc.finish_le⟩
  | give h => exact ⟨hc.funded_eq, hc.finish_le⟩
  | receive h => exact ⟨hc.funded_eq, hc.finish_le⟩
  | pay h hpaid => exact ⟨hc.funded_eq, hc.finish_le⟩
  | clamp h => exact ⟨hc.funded_eq, hc.finish_le⟩

theorem Account.Moves.conserved (h : Moves now a a') (hs : a.Shaped now) (hc : a.Conserved) :
    a'.Conserved := by
  induction h with
  | refl => exact hc
  | tail hmoves hmove ih => exact Move.conserved hmove (Moves.shaped hmoves hs) ih

theorem Account.Rewire.conserved {changes : Prop} (h : Rewire now changes False a a')
    (hc : a.Conserved) : a'.Conserved := by
  cases h with
  | keep => exact hc
  | change _ vault h => exact ⟨hc.funded_eq, hc.finish_le⟩
  | @settle _ vault balance hvault hrate hpaid =>
      refine ⟨?_, hc.finish_le⟩
      have hzero := settled_liability (a := a) balance hrate
      have hscheduled : a.stream.scheduled = 0 := LinearStream.scheduled_eq_zero (.inl hrate)
      have hfunded := hc.funded_eq
      rw [LinearStream.liability, hscheduled] at hfunded
      dsimp only
      rw [hzero]
      dsimp only [settled]
      omega
  | reset hcall vault => exact hcall.elim

/-- What the vault has received or may claim for the seconds up to `now`. -/
def Account.earned (now : ℕ) (a : Account) : ℕ := a.ghost.streamed + a.stream.due now

/-- No move changes what is earned up to its time. -/
theorem Account.Moves.earned (h : Moves now a a') : a'.earned now = a.earned now := by
  induction h with
  | refl => rfl
  | tail _ hmove ih =>
      rw [← ih]
      cases hmove with
      | accrue hvault hfunds hpaid =>
          simp only [Account.earned, accrued, LinearStream.accrue_settled, LinearStream.accrue_paid,
            Nat.add_zero]
      | fund hvault hdue hamount hfits =>
          simp only [Account.earned, Account.fund, LinearStream.fund_settled, hdue]
      | take h => rfl
      | give h => rfl
      | receive h => rfl
      | pay h hpaid => rfl
      | clamp h => rfl

/-- A change of the vault pays the old vault its carry besides. -/
theorem Account.Rewire.earned_le {changes : Prop} (h : Rewire now changes False a a') :
    a.earned now ≤ a'.earned now ∧ (¬ changes → a'.earned now = a.earned now) := by
  cases h with
  | keep => exact ⟨le_rfl, fun _ ↦ rfl⟩
  | change hcall vault h => exact ⟨le_rfl, fun hno ↦ absurd hcall hno⟩
  | settle hcall vault hvault hrate hpaid =>
      refine ⟨?_, fun hno ↦ absurd hcall hno⟩
      simp only [Account.earned, settled, LinearStream.due, hrate, Nat.mul_zero]
      omega
  | reset hcall vault => exact hcall.elim

variable {port : VeClaimNFT.IShareholderRoyalties S}

theorem Op.Effect.keeps_conserved {op : Op S} {w w' : World S} {k : ℕ} (hop : ¬ op.Resets)
    (hs : Sound now w) (hc : (w.account 0).Conserved)
    (h : op.Effect now (w.account k) (w'.account 0)) : (w'.account 0).Conserved := by
  obtain ⟨a₁, hmoves, hrewire⟩ := h
  have hshaped : (w.account k).Shaped now :=
    ⟨hs.shaped.last_le, hs.shaped.open_lt, hs.shaped.carry_lt, hs.shaped.scheduled_lt,
      hs.shaped.unset⟩
  have hconserved : (w.account k).Conserved := ⟨hc.funded_eq, hc.finish_le⟩
  exact Rewire.conserved (hrewire.mono id fun h ↦ hop h) (Moves.conserved hmoves hshaped hconserved)

theorem reachable_conserved {c : Timed (World S)}
    (hc : (systemOf port fun op ↦ ¬ op.Resets).Reachable c) : (c.state.account 0).Conserved := by
  refine hc.invariant (I := fun c ↦ (c.state.account 0).Conserved) ?_ ?_
  · rintro ⟨now, w⟩ ⟨self, owner, base, -, heq⟩
    change w = ⟨initial self owner now, base⟩ at heq
    rw [heq]
    exact ⟨rfl, Nat.zero_le _⟩
  · rintro ⟨now, w⟩ ⟨now', w'⟩ hreach hconserved ⟨call, op, hop, hle, hok, rfl⟩
    have hsound := reachable_sound (systemOf_reachable hreach)
    have hlater : Sound call.timestamp w := ⟨hsound.shaped.later hle, hsound.distinct⟩
    exact Op.Effect.keeps_conserved hop hlater hconserved
      ((exec_effect port call w op hsound.distinct).of_ok hok)

/-- The stream conserves what it is given, in every run without an emergency
rewire: fundings are paid, carried or scheduled; the carry stays below the
window; no call changes what is earned up to its time, but for the carry that a
change of the vault pays; and an accrual a window after the last funding leaves
the carry alone. -/
theorem lp_stream_conserved {c : Timed (World S)}
    (hc : (systemOf port fun op ↦ ¬ op.Resets).Reachable c) :
    let f := c.state.furnace
    f.ghost.funded = f.ghost.streamed +
        (f.stream.carry + (f.stream.finish - f.stream.last) * f.stream.rate) ∧
      f.stream.carry < LP_STREAM_WINDOW ∧
      (∀ call op w', ¬ op.Resets → c.now ≤ call.timestamp →
        exec port call c.state op = .ok w' →
          f.ghost.streamed + f.stream.due call.timestamp ≤
            w'.furnace.ghost.streamed + w'.furnace.stream.due call.timestamp ∧
          (¬ op.Changes → w'.furnace.ghost.streamed + w'.furnace.stream.due call.timestamp =
            f.ghost.streamed + f.stream.due call.timestamp)) ∧
      ∀ call : Call, c.now ≤ call.timestamp → f.ghost.fundedAt + LP_STREAM_WINDOW ≤ call.timestamp →
        Returns (fun r ↦ r.1.furnace.ghost.funded = f.ghost.funded ∧
            r.1.furnace.ghost.streamed + f.stream.carry = f.ghost.funded)
          (accrueLpStream call c.state) := by
  have hsound := reachable_sound (systemOf_reachable hc)
  have hconserved := reachable_conserved hc
  refine ⟨hconserved.funded_eq, hsound.shaped.carry_lt, ?_, ?_⟩
  · intro call op w' hop hle hok
    obtain ⟨a₁, hmoves, hrewire⟩ := (exec_effect port call c.state op hsound.distinct).of_ok hok
    have hearned : a₁.earned call.timestamp = (c.state.account 0).earned call.timestamp :=
      @Moves.earned _ (c.state.account op.brought) _ hmoves
    obtain ⟨hle', heq⟩ := Rewire.earned_le (hrewire.mono id fun h ↦ hop h)
    exact ⟨hearned.symm.trans_le hle', fun hno ↦ (heq hno).trans hearned⟩
  · intro call hle hperiod
    have hfunded : (c.state.account 0).ghost.funded =
      (c.state.account 0).ghost.streamed + c.state.furnace.stream.liability := hconserved.funded_eq
    refine (accrueLpStream_account call c.state 0).weaken ?_
    rintro r (⟨hnone, heq⟩ | ⟨-, balance, -, -, heq⟩)
    · have hliability : c.state.furnace.stream.liability = 0 := hsound.shaped.unset hnone
      have hcarry : c.state.furnace.stream.carry = 0 :=
        Nat.eq_zero_of_add_eq_zero_right hliability
      have hghost : r.1.furnace.ghost = (c.state.account 0).ghost := congrArg Account.ghost heq
      rw [hghost, hcarry]
      refine ⟨rfl, ?_⟩
      change (c.state.account 0).ghost.streamed + 0 = (c.state.account 0).ghost.funded
      omega
    · have hfinish : c.state.furnace.stream.finish ≤ call.timestamp :=
        hconserved.finish_le.trans hperiod
      have hended := c.state.furnace.stream.accrue_ended hfinish
      have hpaid := c.state.furnace.stream.accrue_liability call.timestamp
      have hghost : r.1.furnace.ghost =
          ((c.state.account 0).accrued call.timestamp balance).ghost := congrArg Account.ghost heq
      rw [hghost]
      refine ⟨rfl, ?_⟩
      change (c.state.account 0).ghost.streamed +
          (c.state.furnace.stream.accrue call.timestamp).2 + c.state.furnace.stream.carry =
        (c.state.account 0).ghost.funded
      omega

theorem lp_stream_conserved_dripped : ∃ w : World Unit,
    0 < w.furnace.ghost.funded ∧
      w.furnace.ghost.funded = w.furnace.ghost.streamed +
        (w.furnace.stream.carry +
          (w.furnace.stream.finish - w.furnace.stream.last) * w.furnace.stream.rate) := by
  have hok : ((runCalls (fun c w ↦ exec VeClaimNFT.acceptingPort c.1 w c.2) drippedCalls
      rewireWorld).toOption.any fun w ↦ decide (0 < w.furnace.ghost.funded)) = true := by
    decide +kernel
  cases hrun : runCalls (fun c w ↦ exec VeClaimNFT.acceptingPort c.1 w c.2) drippedCalls
      rewireWorld with
  | error e =>
      rw [hrun] at hok
      cases hok
  | ok w =>
      rw [hrun] at hok
      have hinit : (systemOf VeClaimNFT.acceptingPort fun op ↦ ¬ op.Resets).Reachable
          ⟨1, rewireWorld⟩ := .init ⟨3, 9, rewireWorld.base, by decide, rfl⟩
      have hreach := systemOf_run hinit hrun (by simp [drippedCalls, Op.Resets])
        (by simp [drippedCalls, rewireCall])
      exact ⟨w, of_decide_eq_true hok, (lp_stream_conserved hreach).1⟩

/-! ## The CLAIM of the vault -/

section Vault

variable (call : Call) {vault : Address} {w w' w'' : World S}

/-- The ghost books as streamed what `vault` receives. -/
structure Streams (vault : Address) (w w' : World S) : Prop where
  self : w'.furnace.self = w.furnace.self
  booked : w'.furnace.ghost.streamed + w.claim.balanceOf vault =
    w.furnace.ghost.streamed + w'.claim.balanceOf vault

theorem Streams.refl (w : World S) : Streams vault w w := ⟨rfl, rfl⟩

theorem Streams.trans (h : Streams vault w w') (h' : Streams vault w' w'') :
    Streams vault w w'' := by
  refine ⟨h'.self.trans h.self, ?_⟩
  have := h.booked
  have := h'.booked
  omega

theorem Streams.of_base (hself : w'.furnace.self = w.furnace.self)
    (hstreamed : w'.furnace.ghost.streamed = w.furnace.ghost.streamed)
    (hbase : w'.base = w.base) : Streams vault w w' := by
  obtain ⟨f, base⟩ := w'
  obtain rfl : base = w.base := hbase
  refine ⟨hself, ?_⟩
  rw [hstreamed]
  rfl

theorem fundLpStreamInternal_streamed (f : FurnaceState) (amount : ℕ) :
    Returns (fun f' ↦ f'.ghost.streamed = f.ghost.streamed)
      (fundLpStreamInternal call f amount) := by
  unfold fundLpStreamInternal
  refine Returns.ite (fun _ ↦ rfl) fun _ ↦ Returns.ite (fun _ ↦ rfl) fun _ ↦ ?_
  exact Returns.seq fun s _ ↦ rfl

theorem overflowDrip_streamed (f : FurnaceState) :
    Returns (fun f' ↦ f'.ghost.streamed = f.ghost.streamed) (overflowDrip call f) := by
  unfold overflowDrip
  refine Returns.ite (fun _ ↦ rfl) fun _ ↦ Returns.ite (fun _ ↦ rfl) fun _ ↦ ?_
  refine Returns.ite (fun _ ↦ rfl) fun _ ↦ Returns.seq fun p _ ↦
    Returns.ite (fun _ ↦ rfl) fun _ ↦ ?_
  refine Returns.seq fun accrued _ ↦ Returns.ite (fun _ ↦ rfl) fun _ ↦ ?_
  refine Outcome.bind (fundLpStreamInternal_streamed call _ _) fun f' hf' ↦ ?_
  exact Returns.guard fun _ ↦ hf'

/-- A transfer to the vault, with the amount booked. -/
theorem Streams.of_transfer {f : FurnaceState} {claim : ClaimToken} {amount : ℕ}
    (hne : vault ≠ w.furnace.self) (hself : f.self = w.furnace.self)
    (hstreamed : f.ghost.streamed = w.furnace.ghost.streamed + amount)
    (hpaid : w.claim.transfer w.furnace.self vault amount = .ok claim) :
    Streams vault w { w.withClaim claim with furnace := f } := by
  refine ⟨hself, ?_⟩
  have hreceived := (ClaimToken.transfer_eq_ok hpaid).balance_dst (Ne.symm hne)
  change f.ghost.streamed + w.claim.balanceOf vault =
    w.furnace.ghost.streamed + claim.balanceOf vault
  omega

variable (w)

theorem accrueLpStream_streams (hne : w.furnace.lpRewardsVault ≠ w.furnace.self) :
    Returns (fun r ↦ Streams w.furnace.lpRewardsVault w r.1) (accrueLpStream call w) := by
  unfold accrueLpStream
  refine Returns.ite (fun _ ↦ .refl w) fun _ ↦ Returns.ite (fun _ ↦ .of_base rfl rfl rfl) fun _ ↦ ?_
  refine Returns.ite (fun _ ↦ .refl w) fun _ ↦ ?_
  generalize (if call.timestamp < w.furnace.stream.finish then call.timestamp
    else w.furnace.stream.finish) = t
  refine Returns.ite (fun _ ↦ .refl w) fun _ ↦ ?_
  refine Returns.seq fun streamed _ ↦ Returns.seq fun claim hpaid ↦ ?_
  choose events hevents using notify_eq call
  rw [hevents]
  refine .of_transfer hne ?_ ?_ hpaid <;> split <;> rfl

theorem settleMaturedLpCarry_streams (hne : vault ≠ w.furnace.self) :
    Streams vault w (settleMaturedLpCarry call w vault) := by
  unfold settleMaturedLpCarry
  dsimp only
  split_ifs
  · exact .refl w
  · exact .refl w
  · choose events hevents using notify_eq call
    rw [hevents]
    split
    next claim hpaid => exact .of_transfer hne rfl rfl hpaid
    next => exact .of_base rfl rfl rfl

theorem accrueLpOverflowDrip_streams (hne : w.furnace.lpRewardsVault ≠ w.furnace.self) :
    Returns (fun r ↦ Streams w.furnace.lpRewardsVault w r.1) (accrueLpOverflowDrip call w) := by
  unfold accrueLpOverflowDrip
  refine Outcome.bind (accrueLpStream_streams call w hne) ?_
  rintro ⟨w₁, streamed⟩ h₁
  refine Outcome.bind ((overflowDrip_rest call _).and (overflowDrip_streamed call w₁.furnace)) ?_
  rintro f ⟨⟨stream, events, ghost, reserve, last, -, -, rfl⟩, hstreamed⟩
  exact h₁.trans (.of_base rfl hstreamed rfl)

/-- A tick pays the vault what it books. -/
theorem tick_streams (hne : w.furnace.lpRewardsVault ≠ w.furnace.self) :
    Returns (Streams w.furnace.lpRewardsVault w) (tick call w) := by
  unfold tick
  refine Outcome.bind (accrueLpOverflowDrip_streams call w hne) ?_
  rintro ⟨w₁, streamed⟩ h₁
  have hsynced (w₂ : World S) :
      Streams w.furnace.lpRewardsVault w₂ (syncFurnaceReserve call w₂) := by
    obtain ⟨reserve, events, -, heq⟩ := syncFurnaceReserve_eq call w₂
    rw [heq]
    exact .of_base rfl rfl rfl
  dsimp only
  split
  · refine Outcome.bind ((fundLpStreamInternal_rest call _ 0).and
      (fundLpStreamInternal_streamed call w₁.furnace 0)) ?_
    rintro f ⟨⟨stream, events, ghost, hf⟩, hstreamed⟩
    have hfunded : Streams w.furnace.lpRewardsVault w₁ { w₁ with furnace := f } :=
      .of_base (by rw [hf]) hstreamed rfl
    exact (h₁.trans hfunded).trans (hsynced _)
  · exact h₁.trans (hsynced _)

/-- So does a change of the vault, for the old one. -/
theorem setLpRewardsVault_streams (hne : w.furnace.lpRewardsVault ≠ w.furnace.self)
    (vault : Address) :
    Returns (fun w' ↦ w'.furnace.ghost.streamed + w.claim.balanceOf w.furnace.lpRewardsVault =
        w.furnace.ghost.streamed + w'.claim.balanceOf w.furnace.lpRewardsVault)
      (setLpRewardsVault call w vault) := by
  have hend : Returns (fun w' : World S ↦
      w'.furnace.ghost.streamed + w.claim.balanceOf w.furnace.lpRewardsVault =
        w.furnace.ghost.streamed + w'.claim.balanceOf w.furnace.lpRewardsVault) (do
      if w.furnace.lpRewardsVault ≠ vault then
        let r ← accrueLpOverflowDrip call w
        let w₁ := settleMaturedLpCarry call r.1 w.furnace.lpRewardsVault
        let liability ← lpRewardsVaultLiability call w₁.furnace
        revertIf (liability ≠ 0) .LpRewardsStreamActive
        let f := { w₁.furnace with
          lastLpOverflowDripUpdate := call.timestamp
          lpRewardsVault := vault }
        return { w₁ with furnace := f.emit (.LpRewardsVaultSet w.furnace.lpRewardsVault vault) }
      else return w.emit (.LpRewardsVaultSet w.furnace.lpRewardsVault vault)) := by
    refine Returns.ite (fun _ ↦ ?_) fun _ ↦ rfl
    refine Outcome.bind (accrueLpOverflowDrip_streams call w hne) fun r h₁ ↦ ?_
    refine Returns.seq fun liability _ ↦ Returns.guard fun _ ↦ ?_
    exact (h₁.trans (settleMaturedLpCarry_streams call r.1 (by rwa [h₁.self]))).booked
  unfold setLpRewardsVault
  refine Returns.seq fun _ _ ↦ ?_
  dsimp only
  split
  · exact Returns.guard fun _ ↦ Returns.seq fun _ _ ↦ hend
  · exact hend

end Vault

end ClaimRush.Furnace
