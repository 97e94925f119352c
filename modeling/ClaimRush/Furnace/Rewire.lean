import ClaimRush.Furnace.System

/-!
# Rewiring a matured stream

Once the period of the LP stream has ended, an accrual pays what was scheduled
and leaves the carry, which a change of the vault pays to the old vault.  A
`tick` in between folds the carry into a new schedule of rate zero.  Such a
schedule pays nothing, and its finish time keeps the carry from being paid.
-/

namespace ClaimRush.Furnace

open Constants Account

variable {S : Type} (call : Call) {w w₁ w' : World S}

/-- An amount that is paid if there is any. -/
def PaysOut (c c' : ClaimToken) (src dst : Address) (amount : ℕ) : Prop :=
  if amount = 0 then c' = c else c.transfer src dst amount = .ok c'

theorem PaysOut.nothing {c c' : ClaimToken} {src dst : Address} {amount : ℕ} (h : amount = 0) :
    PaysOut c c' src dst amount ↔ c' = c := by
  rw [PaysOut, if_pos h]

theorem PaysOut.something {c c' : ClaimToken} {src dst : Address} {amount : ℕ} (h : amount ≠ 0) :
    PaysOut c c' src dst amount ↔ c.transfer src dst amount = .ok c' := by
  rw [PaysOut, if_neg h]

/-- The vault has nothing more to get by the time `now`, and the reserve does not
drip. -/
structure Matured (now : ℕ) (w : World S) : Prop where
  shaped : (w.account 0).Shaped now
  ended : w.furnace.stream.rate = 0 ∨ w.furnace.stream.finish ≤ now
  reserve_le : w.furnace.furnaceReserve ≤ RESERVE_TARGET_FINAL

/-- What an accrual of a matured stream leaves. -/
structure Accrued (now : ℕ) (w w₁ : World S) : Prop where
  rate : w₁.furnace.stream.rate = 0
  finish : w₁.furnace.stream.finish =
    if w.furnace.stream.rate = 0 then w.furnace.stream.finish else 0
  carry : w₁.furnace.stream.carry = w.furnace.stream.carry
  dripped : now ≤ w₁.furnace.lastLpOverflowDripUpdate
  reserve : w₁.furnace.furnaceReserve = w.furnace.furnaceReserve
  self : w₁.furnace.self = w.furnace.self
  vault : w₁.furnace.lpRewardsVault = w.furnace.lpRewardsVault
  claim : PaysOut w.claim w₁.claim w.furnace.self w.furnace.lpRewardsVault
    w.furnace.stream.scheduled

/-- A reserve within its target does not drip. -/
theorem overflowDrip_idle {E : Error → Prop} {f : FurnaceState}
    (h : f.furnaceReserve ≤ RESERVE_TARGET_FINAL) :
    Outcome (fun f' ↦ ∃ last, call.timestamp ≤ last ∧
        f' = { f with lastLpOverflowDripUpdate := last }) E (overflowDrip call f) := by
  unfold overflowDrip
  by_cases hpast : call.timestamp ≤ f.lastLpOverflowDripUpdate
  · rw [if_pos hpast]
    exact ⟨_, hpast, rfl⟩
  · simp only [if_neg hpast, h, if_true, ite_self]
    exact ⟨_, le_rfl, rfl⟩

/-- A schedule that is still open has something to pay. -/
theorem Matured.open_stream (h : Matured call.timestamp w) (hrate : w.furnace.stream.rate ≠ 0) :
    w.furnace.lpRewardsVault ≠ 0 ∧ w.furnace.stream.finish ≠ 0 ∧
      w.furnace.stream.last < call.timestamp ∧ w.furnace.stream.last < w.furnace.stream.finish ∧
      w.furnace.stream.finish ≤ call.timestamp := by
  have hopen : w.furnace.stream.last < w.furnace.stream.finish := h.shaped.open_lt hrate
  have hended : w.furnace.stream.finish ≤ call.timestamp := h.ended.resolve_left hrate
  refine ⟨fun hnone ↦ ?_, by omega, by omega, hopen, hended⟩
  have hliability : w.furnace.stream.liability = 0 := h.shaped.unset hnone
  have hscheduled : w.furnace.stream.scheduled = 0 :=
    Nat.eq_zero_of_add_eq_zero_left hliability
  rcases Nat.mul_eq_zero.mp hscheduled with hsub | hzero
  · omega
  · exact hrate hzero

/-- A transfer fails with errors of its own. -/
theorem transfer_outcome (c : ClaimToken) (src dst : Address) (value : ℕ) {rate : ℕ}
    (hrate : rate ≠ 0) :
    Outcome (fun c' ↦ c.transfer src dst value = .ok c')
      (fun e ↦ rate ≠ 0 ∧ e ≠ .LpRewardsStreamActive) (c.transfer src dst value) := by
  cases htransfer : c.transfer src dst value with
  | ok c' => rfl
  | error e =>
      refine ⟨hrate, fun heq ↦ ?_⟩
      subst heq
      simp only [ClaimToken.transfer, ClaimToken.move, revertIf] at htransfer
      split_ifs at htransfer <;> cases htransfer

theorem accrueLpStream_matured (h : Matured call.timestamp w) :
    Outcome (fun r ↦ ∃ s claim events ghost,
        r.1 = ⟨{ w.furnace with stream := s, events := events, ghost := ghost },
          { w.base with claim := claim }⟩ ∧
        s.rate = 0 ∧ s.carry = w.furnace.stream.carry ∧
        s.finish = (if w.furnace.stream.rate = 0 then w.furnace.stream.finish else 0) ∧
        PaysOut w.claim claim w.furnace.self w.furnace.lpRewardsVault w.furnace.stream.scheduled)
      (fun e ↦ w.furnace.stream.rate ≠ 0 ∧ e ≠ .LpRewardsStreamActive)
      (accrueLpStream call w) := by
  by_cases hrate : w.furnace.stream.rate = 0
  · have hpays : PaysOut w.claim w.claim w.furnace.self w.furnace.lpRewardsVault
        w.furnace.stream.scheduled :=
      (PaysOut.nothing (LinearStream.scheduled_eq_zero (.inl hrate))).mpr rfl
    unfold accrueLpStream
    by_cases hvault : w.furnace.lpRewardsVault = 0
    · rw [if_pos hvault]
      exact ⟨w.furnace.stream, w.claim, _, _, rfl, hrate, rfl, (if_pos hrate).symm, hpays⟩
    · rw [if_neg hvault, if_pos (Or.inl hrate)]
      exact ⟨{ w.furnace.stream with last := call.timestamp }, w.claim, _, _, rfl, hrate, rfl,
        (if_pos hrate).symm, hpays⟩
  · obtain ⟨hvault, hfinish, hlater, hopen, hended⟩ := h.open_stream call hrate
    have hfits : (w.furnace.stream.finish - w.furnace.stream.last) * w.furnace.stream.rate <
        uint256Bound := h.shaped.scheduled_lt
    simp only [accrueLpStream, if_neg hvault, hrate, hfinish, or_self, if_false,
      not_le.mpr hlater, not_lt.mpr hended, not_le.mpr hopen, ge_iff_le, le_refl, if_true]
    rw [uint256_eq_ok.mpr ⟨hfits, rfl⟩]
    refine (Outcome.bind_iff _ _).mpr ((Outcome.ok_iff _).mpr ?_)
    refine Outcome.bind (transfer_outcome _ _ _ _ hrate) ?_
    intro claim htransfer
    obtain ⟨events, hevents⟩ := notify_eq call { w.furnace with
      stream := { w.furnace.stream with last := w.furnace.stream.finish }
      ghost := { w.furnace.ghost with
        streamed := w.furnace.ghost.streamed +
          (w.furnace.stream.finish - w.furnace.stream.last) * w.furnace.stream.rate } }
      w.furnace.lpRewardsVault
      ((w.furnace.stream.finish - w.furnace.stream.last) * w.furnace.stream.rate)
    rw [hevents]
    have hscheduled : w.furnace.stream.scheduled ≠ 0 :=
      Nat.mul_ne_zero (Nat.sub_ne_zero_of_lt hopen) hrate
    exact ⟨_, claim, events, _, rfl, rfl, rfl, rfl, (PaysOut.something hscheduled).mpr htransfer⟩

theorem accrueLpOverflowDrip_matured (h : Matured call.timestamp w) :
    Outcome (fun r ↦ Accrued call.timestamp w r.1)
      (fun e ↦ w.furnace.stream.rate ≠ 0 ∧ e ≠ .LpRewardsStreamActive)
      (accrueLpOverflowDrip call w) := by
  unfold accrueLpOverflowDrip
  refine Outcome.bind (accrueLpStream_matured call h) ?_
  rintro ⟨w₁, streamed⟩ ⟨s, claim, events, ghost, heq, hrate, hcarry, hfinish, hpays⟩
  dsimp only at heq
  subst heq
  refine Outcome.bind (overflowDrip_idle call h.reserve_le) ?_
  rintro f ⟨last, hlast, rfl⟩
  exact ⟨hrate, hfinish, hcarry, hlast, rfl, rfl, rfl, hpays⟩

/-! ## Ticks -/

/-- A tick pays what was scheduled.  It gives a carry a new finish time, but no
rate. -/
structure Ticked (w w' : World S) : Prop where
  rate : w'.furnace.stream.rate = 0
  carry : w'.furnace.stream.carry = w.furnace.stream.carry
  finish : w.furnace.stream.carry ≠ 0 → w'.furnace.stream.finish ≠ 0
  reserve_le : w'.furnace.furnaceReserve ≤ RESERVE_TARGET_FINAL
  self : w'.furnace.self = w.furnace.self
  vault : w'.furnace.lpRewardsVault = w.furnace.lpRewardsVault
  claim : PaysOut w.claim w'.claim w.furnace.self w.furnace.lpRewardsVault
    w.furnace.stream.scheduled

theorem syncFurnaceReserve_eq (w : World S) :
    ∃ reserve events, reserve ≤ w.furnace.furnaceReserve ∧ syncFurnaceReserve call w =
      { w with furnace := { w.furnace with furnaceReserve := reserve, events := events } } := by
  unfold syncFurnaceReserve
  dsimp only
  generalize (if w.claimBalance > w.furnace.stream.liability then
    w.claimBalance - w.furnace.stream.liability else 0) = cap
  split
  · next hover => exact ⟨_, _, Nat.le_of_lt hover, rfl⟩
  · exact ⟨_, _, le_rfl, rfl⟩

/-- Folding a carry alone gives a schedule without a rate. -/
theorem fundLpStream_carry {f : FurnaceState} (hrate : f.stream.rate = 0)
    (hcarry : f.stream.carry < LP_STREAM_WINDOW) :
    Returns (fun f' ↦ ∃ s events ghost,
      f' = { f with stream := s, events := events, ghost := ghost } ∧
        s.rate = 0 ∧ s.carry = f.stream.carry ∧
        (f.stream.carry ≠ 0 → f.lpRewardsVault ≠ 0 → s.finish ≠ 0))
      (fundLpStreamInternal call f 0) := by
  unfold fundLpStreamInternal
  apply Returns.ite
  · rintro ⟨-, hnone⟩
    exact ⟨f.stream, _, _, rfl, hrate, rfl, fun h ↦ absurd hnone h⟩
  intro _
  apply Returns.ite
  · exact fun hvault ↦ ⟨f.stream, _, _, rfl, hrate, rfl, fun _ h ↦ absurd hvault h⟩
  intro _
  refine Returns.seq fun s hs ↦ ?_
  obtain ⟨rfl, -⟩ := computeStreamSchedule_eq_ok hs
  refine ⟨f.stream.fund LP_STREAM_WINDOW 0 call.timestamp, _, _, rfl, ?_, ?_, fun _ _ ↦ ?_⟩
  · simp [LinearStream.fund, hrate, Nat.div_eq_of_lt hcarry]
  · simp [LinearStream.fund, hrate, Nat.mod_eq_of_lt hcarry]
  · have hwindow := LP_STREAM_WINDOW_pos
    simp only [LinearStream.fund]
    omega

theorem tick_matured (h : Matured call.timestamp w) :
    Returns (Ticked w) (tick call w) := by
  unfold tick
  refine Outcome.bind (Returns.of_outcome (accrueLpOverflowDrip_matured call h)) ?_
  rintro ⟨w₁, streamed⟩ hacc
  have hreserve := h.reserve_le
  have hcarryLt : w₁.furnace.stream.carry < LP_STREAM_WINDOW := hacc.carry ▸ h.shaped.carry_lt
  dsimp only at hacc hcarryLt ⊢
  apply Returns.ite
  · rintro ⟨hcarry, -, hvault⟩
    refine Outcome.bind (fundLpStream_carry call hacc.rate hcarryLt) ?_
    rintro f ⟨s, events, ghost, rfl, hrate, hsame, hfinish⟩
    obtain ⟨reserve, events', hle, heq⟩ := syncFurnaceReserve_eq call { w₁ with furnace :=
      { w₁.furnace with stream := s, events := events, ghost := ghost } }
    rw [heq]
    refine ⟨hrate, hsame.trans hacc.carry, fun _ ↦ hfinish (Nat.ne_of_gt hcarry) hvault, ?_,
      hacc.self, hacc.vault, hacc.claim⟩
    exact (hle.trans hacc.reserve.le).trans hreserve
  · intro hnone
    obtain ⟨reserve, events', hle, heq⟩ := syncFurnaceReserve_eq call w₁
    change Returns _ (pure (syncFurnaceReserve call w₁))
    rw [heq]
    refine ⟨hacc.rate, hacc.carry, fun hcarry ↦ absurd ?_ hnone, ?_, hacc.self, hacc.vault,
      hacc.claim⟩
    · refine ⟨?_, hacc.rate, ?_⟩
      · rw [hacc.carry]
        exact Nat.pos_of_ne_zero hcarry
      · rw [hacc.vault]
        intro hvault
        have hliability : w.furnace.stream.liability = 0 := h.shaped.unset hvault
        exact hcarry (Nat.eq_zero_of_add_eq_zero_right hliability)
    · exact (hle.trans hacc.reserve.le).trans hreserve

theorem Matured.later {now now' : ℕ} (h : Matured now w) (hle : now ≤ now') : Matured now' w :=
  ⟨h.shaped.later hle, h.ended.imp_right fun hended ↦ hended.trans hle, h.reserve_le⟩

theorem Ticked.trans {w₂ : World S} (h : Ticked w w₁) (h' : Ticked w₁ w₂) : Ticked w w₂ := by
  refine ⟨h'.rate, h'.carry.trans h.carry, fun hcarry ↦ h'.finish (h.carry ▸ hcarry),
    h'.reserve_le, h'.self.trans h.self, h'.vault.trans h.vault, ?_⟩
  have hpaid := h'.claim
  rw [PaysOut.nothing (LinearStream.scheduled_eq_zero (.inl h.rate))] at hpaid
  exact hpaid ▸ h.claim

/-- After any number of ticks, from the first one on, the stream has no rate. -/
theorem ticks_matured {now : ℕ} {calls : List Call} (h : Matured now w)
    (hrun : runCalls (fun (c : Call) (w : World S) ↦ tick c w) calls w = .ok w')
    (hsorted : (now :: calls.map fun c ↦ c.timestamp).IsChain (· ≤ ·)) :
    Matured ((calls.map fun c ↦ c.timestamp).getLastD now) w' ∧
      (calls = [] ∧ w' = w ∨ Ticked w w') := by
  induction calls generalizing now w with
  | nil =>
      obtain rfl := Except.ok.inj hrun
      exact ⟨h, .inl ⟨rfl, rfl⟩⟩
  | cons call calls ih =>
      obtain ⟨w₁, htick, hrest⟩ := bind_eq_ok_iff.mp hrun
      rw [List.map_cons, List.isChain_cons_cons] at hsorted
      have hlater := h.later hsorted.1
      have hticked := (tick_matured call hlater).of_ok htick
      have hshaped := ((tick_moves call w 0).of_ok htick).shaped hlater.shaped
      obtain ⟨hmatured, hcases⟩ :=
        ih ⟨hshaped, .inl hticked.rate, hticked.reserve_le⟩ hrest hsorted.2
      rw [List.map_cons, List.getLastD_cons]
      refine ⟨hmatured, .inr ?_⟩
      rcases hcases with ⟨-, rfl⟩ | hagain
      · exact hticked
      · exact hticked.trans hagain

/-! ## The change of the vault -/

/-- A carry without a schedule is paid to the vault. -/
theorem settleMaturedLpCarry_pays (hrate : w.furnace.stream.rate = 0)
    (hfinish : w.furnace.stream.carry ≠ 0 → w.furnace.stream.finish = 0)
    (hvault : w.furnace.stream.carry ≠ 0 → w.furnace.lpRewardsVault ≠ 0)
    (hpays : w.furnace.stream.carry ≠ 0 → ∃ claim,
      w.claim.transfer w.furnace.self w.furnace.lpRewardsVault w.furnace.stream.carry = .ok claim) :
    ∃ s events ghost claim,
      settleMaturedLpCarry call w w.furnace.lpRewardsVault =
        ⟨{ w.furnace with stream := s, events := events, ghost := ghost },
          { w.base with claim := claim }⟩ ∧
      s.liability = 0 ∧
      PaysOut w.claim claim w.furnace.self w.furnace.lpRewardsVault w.furnace.stream.carry := by
  have hscheduled : w.furnace.stream.scheduled = 0 := LinearStream.scheduled_eq_zero (.inl hrate)
  by_cases hcarry : w.furnace.stream.carry = 0
  · refine ⟨w.furnace.stream, w.furnace.events, w.furnace.ghost, w.claim, ?_, ?_,
      (PaysOut.nothing hcarry).mpr rfl⟩
    · simp only [settleMaturedLpCarry, hcarry, or_true, if_true]
      rfl
    · rw [LinearStream.liability, hcarry, hscheduled]
  · obtain ⟨claim, hclaim⟩ := hpays hcarry
    obtain ⟨events, hevents⟩ := notify_eq call { w.furnace with
      stream := { w.furnace.stream with carry := 0 }
      ghost := { w.furnace.ghost with
        streamed := w.furnace.ghost.streamed + w.furnace.stream.carry } }
      w.furnace.lpRewardsVault w.furnace.stream.carry
    refine ⟨{ w.furnace.stream with carry := 0 }, events,
      { w.furnace.ghost with streamed := w.furnace.ghost.streamed + w.furnace.stream.carry }, claim,
      ?_, ?_, (PaysOut.something hcarry).mpr hclaim⟩
    · have hnone : ¬ (w.furnace.lpRewardsVault = 0 ∨ w.furnace.stream.carry = 0) :=
        not_or.mpr ⟨hvault hcarry, hcarry⟩
      have hschedule : ¬ (w.furnace.stream.rate ≠ 0 ∨ w.furnace.stream.finish ≠ 0) :=
        not_or.mpr ⟨not_not.mpr hrate, not_not.mpr (hfinish hcarry)⟩
      unfold settleMaturedLpCarry
      dsimp only
      rw [if_neg hnone, if_neg hschedule, hclaim]
      dsimp only
      rw [hevents]
      rfl
    · have hzero : ({ w.furnace.stream with carry := 0 } : LinearStream).scheduled = 0 := hscheduled
      rw [LinearStream.liability, hzero]

/-- A finish time keeps the carry. -/
theorem settleMaturedLpCarry_keeps (hfinish : w.furnace.stream.finish ≠ 0) (vault : Address) :
    settleMaturedLpCarry call w vault = w := by
  unfold settleMaturedLpCarry
  dsimp only
  split
  · rfl
  · rw [if_pos (Or.inr hfinish)]

/-- After a drip, the liability is that of the stream. -/
theorem lpRewardsVaultLiability_dripped {f : FurnaceState}
    (h : call.timestamp ≤ f.lastLpOverflowDripUpdate) :
    lpRewardsVaultLiability call f =
      .ok (if f.lpRewardsVault = 0 then 0 else f.stream.liability) := by
  unfold lpRewardsVaultLiability
  split
  · rfl
  · rw [if_pos (Or.inl h)]

theorem lpRewardsVaultLiability_none {E : Error → Prop} {f : FurnaceState}
    (h : call.timestamp ≤ f.lastLpOverflowDripUpdate) (hzero : f.stream.liability = 0) :
    Outcome (fun liability ↦ liability = 0) E (lpRewardsVaultLiability call f) := by
  rw [lpRewardsVaultLiability_dripped call h, hzero, ite_self]
  exact rfl

/-- The old vault has got what was scheduled and the carry, each once, and the
stream owes nothing. -/
structure PaidOff (w w' : World S) : Prop where
  liability : w'.furnace.stream.liability = 0
  claim : ∃ claim,
    PaysOut w.claim claim w.furnace.self w.furnace.lpRewardsVault w.furnace.stream.scheduled ∧
      PaysOut claim w'.claim w.furnace.self w.furnace.lpRewardsVault w.furnace.stream.carry

/-- The carry is free to be paid: there is none, or no finish time will be left. -/
def CarryFree (s : LinearStream) : Prop := s.carry = 0 ∨ s.rate ≠ 0 ∨ s.finish = 0

/-- The part of `setLpRewardsVault` after the checks, for a new vault. -/
def rewireVault (w : World S) (vault : Address) : Except Error (World S) := do
  let (w₁, _) ← accrueLpOverflowDrip call w
  let w₁ := settleMaturedLpCarry call w₁ w.furnace.lpRewardsVault
  let liability ← lpRewardsVaultLiability call w₁.furnace
  revertIf (liability ≠ 0) .LpRewardsStreamActive
  let f := { w₁.furnace with
    lastLpOverflowDripUpdate := call.timestamp
    lpRewardsVault := vault }
  return { w₁ with furnace := f.emit (.LpRewardsVaultSet w.furnace.lpRewardsVault vault) }

theorem setLpRewardsVault_eq (w : World S) (vault : Address)
    (hnew : w.furnace.lpRewardsVault ≠ vault) :
    setLpRewardsVault call w vault = (do
      onlyConfigOwner call w
      if vault ≠ 0 then
        revertIf (call.codeLength vault = 0) .NotAContract
        requireLpRewardsVaultCompatible call w vault true
      rewireVault call w vault) := by
  unfold setLpRewardsVault rewireVault
  simp only [ne_eq, hnew, not_false_eq_true, if_true]

theorem rewireVault_free (vault : Address) (h : Matured call.timestamp w)
    (hfree : CarryFree w.furnace.stream)
    (hpays : w.furnace.stream.liability ≠ 0 → ∃ claim, w.claim.transfer w.furnace.self
      w.furnace.lpRewardsVault w.furnace.stream.liability = .ok claim) :
    Outcome (PaidOff w) (fun e ↦ e ≠ .LpRewardsStreamActive) (rewireVault call w vault) := by
  unfold rewireVault
  refine Outcome.bind ((accrueLpOverflowDrip_matured call h).mono (fun _ ↦ id) fun _ he ↦ he.2) ?_
  rintro ⟨w₁, streamed⟩ hacc
  dsimp only at hacc ⊢
  rw [← hacc.vault]
  have hscheduled : w₁.furnace.stream.scheduled = 0 :=
    LinearStream.scheduled_eq_zero (.inl hacc.rate)
  have hliability (hcarry : w₁.furnace.stream.carry ≠ 0) : w.furnace.stream.liability ≠ 0 := by
    rw [hacc.carry] at hcarry
    rw [LinearStream.liability]
    omega
  have hsettled := settleMaturedLpCarry_pays call hacc.rate ?_ ?_ ?_
  · obtain ⟨s, events, ghost, claim, heq, hzero, hcarryPaid⟩ := hsettled
    rw [heq]
    refine Outcome.bind (lpRewardsVaultLiability_none call hacc.dripped hzero) ?_
    rintro _ rfl
    refine Outcome.revertIf_bind (fun h ↦ absurd rfl h) fun _ ↦ ?_
    refine ⟨hzero, w₁.claim, hacc.claim, ?_⟩
    rw [hacc.self, hacc.vault, hacc.carry] at hcarryPaid
    exact hcarryPaid
  · intro hcarry
    rw [hacc.finish]
    split
    · next hrate =>
        rw [hacc.carry] at hcarry
        exact (hfree.resolve_left hcarry).resolve_left (not_not.mpr hrate)
    · rfl
  · intro hcarry hnone
    exact hliability hcarry (h.shaped.unset (hacc.vault.symm.trans hnone))
  · intro hcarry
    rw [hacc.self, hacc.vault, hacc.carry]
    have hall := hpays (hliability hcarry)
    rw [LinearStream.liability, Nat.add_comm] at hall
    have hpaid := hacc.claim
    by_cases hnone : w.furnace.stream.scheduled = 0
    · rw [PaysOut.nothing hnone] at hpaid
      rw [hnone, Nat.zero_add] at hall
      exact hpaid ▸ hall
    · rw [PaysOut.something hnone] at hpaid
      exact ClaimToken.transfer_rest hall hpaid

theorem onlyConfigOwner_outcome (w : World S) :
    Outcome (fun _ ↦ True) (fun e ↦ e ≠ .LpRewardsStreamActive) (onlyConfigOwner call w) := by
  simp [onlyConfigOwner, onlyOwner]

theorem requireLpRewardsVaultCompatible_outcome (w : World S) (vault : Address) :
    Outcome (fun _ ↦ True) (fun e ↦ e ≠ .LpRewardsStreamActive)
      (requireLpRewardsVaultCompatible call w vault true) := by
  simp [requireLpRewardsVaultCompatible]

theorem setLpRewardsVault_free {vault : Address} (h : Matured call.timestamp w)
    (hfree : CarryFree w.furnace.stream) (hnew : w.furnace.lpRewardsVault ≠ vault)
    (hpays : w.furnace.stream.liability ≠ 0 → ∃ claim, w.claim.transfer w.furnace.self
      w.furnace.lpRewardsVault w.furnace.stream.liability = .ok claim) :
    Outcome (PaidOff w) (fun e ↦ e ≠ .LpRewardsStreamActive) (setLpRewardsVault call w vault) := by
  rw [setLpRewardsVault_eq call w vault hnew]
  have hrewire := rewireVault_free call vault h hfree hpays
  refine Outcome.bind (onlyConfigOwner_outcome call w) fun _ _ ↦ ?_
  refine (Outcome.ite_iff _ _ _).mpr ⟨fun _ ↦ ?_, fun _ ↦ hrewire⟩
  refine Outcome.revertIf_bind (fun _ h ↦ by cases h) fun _ ↦ ?_
  exact Outcome.bind (requireLpRewardsVaultCompatible_outcome call w vault) fun _ _ ↦ hrewire

/-- A schedule of rate zero keeps its carry, and the vault cannot be changed. -/
theorem setLpRewardsVault_bound {vault : Address} (h : Matured call.timestamp w)
    (hbound : ¬ CarryFree w.furnace.stream) (hnew : w.furnace.lpRewardsVault ≠ vault)
    (howner : call.sender = w.furnace.owner) (hopen : w.furnace.configFrozen = false)
    (hcompatible : vault ≠ 0 → call.codeLength vault ≠ 0 ∧
      requireLpRewardsVaultCompatible call w vault true = .ok ()) :
    setLpRewardsVault call w vault = .error .LpRewardsStreamActive := by
  obtain ⟨hcarry, hidle⟩ := not_or.mp hbound
  obtain ⟨hrate, hfinish⟩ := not_or.mp hidle
  rw [not_not] at hrate
  have hvault : w.furnace.lpRewardsVault ≠ 0 := by
    intro hnone
    have hliability : w.furnace.stream.liability = 0 := h.shaped.unset hnone
    exact hcarry (Nat.eq_zero_of_add_eq_zero_right hliability)
  have haccrue : Outcome (fun r ↦ Accrued call.timestamp w r.1) (fun _ ↦ False)
      (accrueLpOverflowDrip call w) :=
    (accrueLpOverflowDrip_matured call h).mono (fun _ ↦ id) fun _ he ↦ he.1 hrate
  obtain ⟨⟨w₁, streamed⟩, hok, hacc⟩ := Outcome.exists_ok haccrue
  dsimp only at hacc
  have hkept : w₁.furnace.stream.finish ≠ 0 := by
    rw [hacc.finish, if_pos hrate]
    exact hfinish
  have hliability : (if w₁.furnace.lpRewardsVault = 0 then 0 else w₁.furnace.stream.liability) ≠
      0 := by
    rw [hacc.vault, if_neg hvault, LinearStream.liability, hacc.carry]
    omega
  have hrewire : rewireVault call w vault = .error .LpRewardsStreamActive := by
    unfold rewireVault
    rw [hok]
    change (do
      let liability ← lpRewardsVaultLiability call
        (settleMaturedLpCarry call w₁ w.furnace.lpRewardsVault).furnace
      revertIf (liability ≠ 0) Error.LpRewardsStreamActive
      _ : Except Error (World S)) = _
    rw [settleMaturedLpCarry_keeps call hkept, lpRewardsVaultLiability_dripped call hacc.dripped]
    change (do
      revertIf (_ ≠ 0) Error.LpRewardsStreamActive
      _ : Except Error (World S)) = _
    rw [revertIf, if_pos hliability]
    rfl
  have hguard : onlyConfigOwner call w = .ok () := by
    simp [onlyConfigOwner, onlyOwner, revertIf, howner, hopen]
    rfl
  rw [setLpRewardsVault_eq call w vault hnew, hguard, hrewire]
  by_cases hzero : vault = 0
  · rw [if_neg (not_not.mpr hzero)]
    rfl
  · obtain ⟨hcode, hok⟩ := hcompatible hzero
    rw [if_pos hzero, hok, revertIf, if_neg hcode]
    rfl

/-! ## Runs of ticks -/

/-- In every reachable state whose LP period has ended, and after any number of
ticks, a change of the vault does not find the stream active, and pays the old
vault what was left, exactly when there is no carry, or no tick was made and the
last schedule had a rate or has been cleared. -/
theorem rewire_after_ticks_iff {port : VeClaimNFT.IShareholderRoyalties S}
    {c : Timed (World S)} (hc : (system port).Reachable c)
    (hended : c.state.furnace.stream.finish ≤ c.now)
    (hreserve : c.state.furnace.furnaceReserve ≤ RESERVE_TARGET_FINAL)
    (hpays : c.state.furnace.stream.liability ≠ 0 → ∃ claim,
      c.state.claim.transfer c.state.furnace.self c.state.furnace.lpRewardsVault
        c.state.furnace.stream.liability = .ok claim)
    {ticks : List Call} (hsorted : (c.now :: ticks.map fun t ↦ t.timestamp).IsChain (· ≤ ·))
    (hticks : runCalls (fun (t : Call) (w : World S) ↦ tick t w) ticks c.state = .ok w')
    {vault : Address}
    (hlater : (ticks.map fun t ↦ t.timestamp).getLastD c.now ≤ call.timestamp)
    (hnew : w'.furnace.lpRewardsVault ≠ vault) (howner : call.sender = w'.furnace.owner)
    (hopen : w'.furnace.configFrozen = false)
    (hcompatible : vault ≠ 0 → call.codeLength vault ≠ 0 ∧
      requireLpRewardsVaultCompatible call w' vault true = .ok ()) :
    (setLpRewardsVault call w' vault ≠ .error .LpRewardsStreamActive ∧
        ∀ w'', setLpRewardsVault call w' vault = .ok w'' → PaidOff c.state w'') ↔
      c.state.furnace.stream.carry = 0 ∨ ticks = [] ∧
        (c.state.furnace.stream.rate ≠ 0 ∨ c.state.furnace.stream.finish = 0) := by
  have hmatured : Matured c.now c.state := ⟨(reachable_sound hc).shaped, .inr hended, hreserve⟩
  obtain ⟨hlast, hcases⟩ := ticks_matured hmatured hticks hsorted
  have hready := hlast.later hlater
  by_cases hnil : ticks = []
  · subst hnil
    obtain rfl := Except.ok.inj hticks
    have hiff : (c.state.furnace.stream.carry = 0 ∨ ([] : List Call) = [] ∧
        (c.state.furnace.stream.rate ≠ 0 ∨ c.state.furnace.stream.finish = 0)) ↔
        CarryFree c.state.furnace.stream := by simp [CarryFree]
    rw [hiff]
    constructor
    · rintro ⟨hactive, -⟩
      by_contra hbound
      exact hactive (setLpRewardsVault_bound call hready hbound hnew howner hopen hcompatible)
    · intro hfree
      have hrewire := setLpRewardsVault_free call hready hfree hnew hpays
      exact ⟨fun herror ↦ hrewire.of_error herror rfl, fun w'' hok ↦ hrewire.of_ok hok⟩
  · have hticked : Ticked c.state w' := hcases.resolve_left fun h ↦ hnil h.1
    have hiff : (c.state.furnace.stream.carry = 0 ∨ ticks = [] ∧
        (c.state.furnace.stream.rate ≠ 0 ∨ c.state.furnace.stream.finish = 0)) ↔
        c.state.furnace.stream.carry = 0 := by simp [hnil]
    rw [hiff]
    constructor
    · rintro ⟨hactive, -⟩
      by_contra hcarry
      refine hactive (setLpRewardsVault_bound call hready ?_ hnew howner hopen hcompatible)
      rintro (hzero | hrate | hfinish)
      · exact hcarry (hticked.carry.symm.trans hzero)
      · exact hrate hticked.rate
      · exact hticked.finish hcarry hfinish
    · intro hcarry
      have hzero : w'.furnace.stream.carry = 0 := hticked.carry.trans hcarry
      have hscheduled : w'.furnace.stream.scheduled = 0 :=
        LinearStream.scheduled_eq_zero (.inl hticked.rate)
      have hliability : w'.furnace.stream.liability = 0 := by
        rw [LinearStream.liability, hzero, hscheduled]
      have hrewire := setLpRewardsVault_free call hready (.inl hzero) hnew
        fun h ↦ absurd hliability h
      refine ⟨fun herror ↦ hrewire.of_error herror rfl, fun w'' hok ↦ ?_⟩
      obtain ⟨hnone, claim, hfirst, hsecond⟩ := hrewire.of_ok hok
      rw [PaysOut.nothing hscheduled] at hfirst
      rw [PaysOut.nothing hzero] at hsecond
      exact ⟨hnone, w'.claim, hticked.claim,
        (PaysOut.nothing hcarry).mpr (hsecond.trans hfirst)⟩

/-- A call in a world of contracts 1 (lock contract), 2 (CLAIM), 3 (Furnace), 4
(MineCore), 5 and 6 (LP vaults), where MineCore has emitted since its launch. -/
def rewireCall (delay sender : ℕ) : Call where
  timestamp := delay + 1
  timestamp_pos := Nat.succ_pos delay
  sender := sender
  codeLength := fun a ↦ if a ≤ 6 then 1 else 0
  delegatedEOA := fun _ ↦ false
  staticcallAddress := fun target selector ↦
    match selector with
    | .furnace => if target = 4 ∨ target = 5 ∨ target = 6 then 3 else 0
    | .claim => 2
    | .ve => 1
    | _ => 0
  isAuthorized := fun _ _ _ _ ↦ false
  onERC721Received := fun _ ↦ true
  value := 0
  emissionStartTime := fun _ ↦ some 1
  furnaceEmissionRateAt := fun _ _ ↦ some (10 ^ 18)
  routerConfig := fun _ ↦ none
  notifyRewards := fun _ _ ↦ true

def rewireWorld : World Unit where
  furnace := initial 3 9 1
  base :=
    { ve := VeClaimNFT.initial 1 2 9 1
      royalties := ()
      claim :=
        { self := 2, wiringProbe := 8, mineCore := 4, balanceOf := fun _ ↦ 0
          allowance := fun _ _ ↦ 0, totalSupply := 0 } }

/-- A reserve above its target drips into the stream of vault 5 until it is back
at the target, and the period of the stream ends. -/
def drippedCalls : List (Call × Op Unit) :=
  [(rewireCall 1 9, .setMineCore 4), (rewireCall 2 9, .setLpRewardsVault 5),
    (rewireCall 3 4, .mintToReserve (20001000 * 10 ^ 18)), (rewireCall 200000000 7, .tick),
    (rewireCall 202000000 4, .creditReserve 0)]

/-- The run of these calls, and one tick. -/
def tickedRun : Except Error (World Unit × World Unit) := do
  let w ← runCalls (fun c w ↦ exec VeClaimNFT.acceptingPort c.1 w c.2) drippedCalls rewireWorld
  let w' ← tick (rewireCall 202000001 7) w
  return (w, w')

/-- The stream was cleared with a carry that the Furnace can pay, and after the
tick the owner cannot change the vault. -/
def tickedFacts (w w' : World Unit) : Bool :=
  let carryPaid := w.claim.transfer w.furnace.self w.furnace.lpRewardsVault
    w.furnace.stream.liability
  let compatible := requireLpRewardsVaultCompatible (rewireCall 202000002 9) w' 6 true
  let blocked := match setLpRewardsVault (rewireCall 202000002 9) w' 6 with
    | .error .LpRewardsStreamActive => true
    | _ => false
  decide (w.furnace.stream.finish = 0 ∧ w.furnace.stream.carry ≠ 0 ∧
    w.furnace.furnaceReserve ≤ RESERVE_TARGET_FINAL) && carryPaid.toOption.isSome &&
  decide (w'.furnace.lpRewardsVault = 5 ∧ w'.furnace.owner = 9 ∧
    w'.furnace.configFrozen = false) && compatible.toOption.isSome && blocked

theorem tickedRun_facts : ∃ w w',
    (system VeClaimNFT.acceptingPort).Reachable ⟨202000001, w⟩ ∧
      runCalls (fun (t : Call) (w : World Unit) ↦ tick t w) [rewireCall 202000001 7] w = .ok w' ∧
      tickedFacts w w' = true := by
  have hok : (tickedRun.toOption.any fun r ↦ tickedFacts r.1 r.2) = true := by decide +kernel
  cases hrun : tickedRun with
  | error e =>
      rw [hrun] at hok
      cases hok
  | ok r =>
      obtain ⟨w, w'⟩ := r
      rw [hrun] at hok
      obtain ⟨w₁, hcalls, hrest⟩ := bind_eq_ok_iff.mp hrun
      obtain ⟨w₂, htick, hpair⟩ := bind_eq_ok_iff.mp hrest
      obtain ⟨rfl, rfl⟩ := Prod.ext_iff.mp (Except.ok.inj hpair)
      have hinit : (system VeClaimNFT.acceptingPort).Reachable ⟨1, rewireWorld⟩ :=
        .init ⟨3, 9, rewireWorld.base, by decide, rfl⟩
      refine ⟨w₁, w₂, hinit.run ?_, ?_, hok⟩
      · exact @driven_run _ _ _ (fun _ ↦ True) _ _ _ _ _ _ hcalls (by decide)
      · exact bind_eq_ok_iff.mpr ⟨w₂, htick, rfl⟩

/-- The facts, one by one. -/
theorem tickedFacts_spec {w w' : World Unit} (h : tickedFacts w w' = true) :
    (w.furnace.stream.finish = 0 ∧ w.furnace.stream.carry ≠ 0 ∧
        w.furnace.furnaceReserve ≤ RESERVE_TARGET_FINAL) ∧
      (∃ claim, w.claim.transfer w.furnace.self w.furnace.lpRewardsVault
        w.furnace.stream.liability = .ok claim) ∧
      (w'.furnace.lpRewardsVault = 5 ∧ w'.furnace.owner = 9 ∧ w'.furnace.configFrozen = false) ∧
      requireLpRewardsVaultCompatible (rewireCall 202000002 9) w' 6 true = .ok () ∧
      setLpRewardsVault (rewireCall 202000002 9) w' 6 = .error .LpRewardsStreamActive := by
  simp only [tickedFacts, Bool.and_eq_true, decide_eq_true_eq] at h
  obtain ⟨⟨⟨⟨hstream, hpaid⟩, hwired⟩, hcompatible⟩, hblocked⟩ := h
  refine ⟨hstream, ?_, hwired, ?_, ?_⟩
  · cases htransfer : w.claim.transfer w.furnace.self w.furnace.lpRewardsVault
      w.furnace.stream.liability with
    | ok claim => exact ⟨claim, rfl⟩
    | error e =>
        rw [htransfer] at hpaid
        cases hpaid
  · cases hok : requireLpRewardsVaultCompatible (rewireCall 202000002 9) w' 6 true with
    | ok u => rfl
    | error e =>
        rw [hok] at hcompatible
        cases hcompatible
  · split at hblocked
    · assumption
    · cases hblocked

theorem rewire_after_ticks_iff_ticked : ∃ w w',
    runCalls (fun (t : Call) (w : World Unit) ↦ tick t w) [rewireCall 202000001 7] w = .ok w' ∧
      w.furnace.stream.carry ≠ 0 ∧
      ((setLpRewardsVault (rewireCall 202000002 9) w' 6 ≠ .error .LpRewardsStreamActive ∧
          ∀ w'', setLpRewardsVault (rewireCall 202000002 9) w' 6 = .ok w'' → PaidOff w w'') ↔
        w.furnace.stream.carry = 0 ∨ [rewireCall 202000001 7] = [] ∧
          (w.furnace.stream.rate ≠ 0 ∨ w.furnace.stream.finish = 0)) := by
  obtain ⟨w, w', hc, hrun, hfacts⟩ := tickedRun_facts
  obtain ⟨⟨hfinish, hcarry, hreserve⟩, hpaid, ⟨hvault, howner, hopen⟩, hcompatible, -⟩ :=
    tickedFacts_spec hfacts
  refine ⟨w, w', hrun, hcarry, ?_⟩
  exact rewire_after_ticks_iff (rewireCall 202000002 9) hc (hfinish.trans_le (Nat.zero_le _))
    hreserve (fun _ ↦ hpaid) (by simp [rewireCall]) hrun (by simp [rewireCall])
    (by rw [hvault]; decide) howner.symm hopen fun _ ↦ ⟨by decide, hcompatible⟩

/-- One tick after the end of the period, and the vault cannot be changed. -/
theorem not_rewire_after_ticks : ¬ ∀ (c : Timed (World Unit)) (w' : World Unit) (ticks : List Call)
    (call : Call) (vault : Address),
    (system VeClaimNFT.acceptingPort).Reachable c → c.state.furnace.stream.finish ≤ c.now →
    c.state.furnace.furnaceReserve ≤ RESERVE_TARGET_FINAL →
    (∃ claim, c.state.claim.transfer c.state.furnace.self c.state.furnace.lpRewardsVault
      c.state.furnace.stream.liability = .ok claim) →
    (c.now :: ticks.map fun t ↦ t.timestamp).IsChain (· ≤ ·) →
    runCalls (fun (t : Call) (w : World Unit) ↦ tick t w) ticks c.state = .ok w' →
    (ticks.map fun t ↦ t.timestamp).getLastD c.now ≤ call.timestamp →
    w'.furnace.lpRewardsVault ≠ vault → call.sender = w'.furnace.owner →
    w'.furnace.configFrozen = false → call.codeLength vault ≠ 0 →
    requireLpRewardsVaultCompatible call w' vault true = .ok () →
    setLpRewardsVault call w' vault ≠ .error .LpRewardsStreamActive := by
  intro hclaim
  obtain ⟨w, w', hc, hrun, hfacts⟩ := tickedRun_facts
  obtain ⟨⟨hfinish, -, hreserve⟩, hpaid, ⟨hvault, howner, hopen⟩, hcompatible, hblocked⟩ :=
    tickedFacts_spec hfacts
  exact hclaim ⟨202000001, w⟩ w' _ (rewireCall 202000002 9) 6 hc
    (hfinish.trans_le (Nat.zero_le _)) hreserve hpaid (by simp [rewireCall]) hrun
    (by simp [rewireCall]) (by rw [hvault]; decide) howner.symm hopen
    (by decide) hcompatible hblocked

end ClaimRush.Furnace
