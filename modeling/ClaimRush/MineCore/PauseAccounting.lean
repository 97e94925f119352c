import ClaimRush.MineCore.Observed

/-!
# The accrual cursor across pauses

The cursor of a reign starts at its takeover.  While takeovers are paused it
stands, and the end of a pause moves it by the length of the pause, so it is
always ahead of the start by the paused time.
-/

namespace ClaimRush.MineCore

variable {S : Type} (port : VeClaimNFT.IShareholderRoyalties S)

/-- The cursor of a reign that started at `s`. -/
structure ReignClock (g : Game) (now : ℕ) (pauses : Timeline) (s : ℕ) : Prop where
  start_le : s ≤ g.currentReignLastAccrualTime
  le_now : g.currentReignLastAccrualTime ≤ now
  running : g.takeoversPaused = false → g.pausedSince = 0 ∧
    g.currentReignLastAccrualTime = s + pauses.onTime s now
  stopped : g.takeoversPaused = true → g.pausedSince ≠ 0 ∧
    g.currentReignLastAccrualTime ≤ g.pausedSince ∧ g.pausedSince ≤ now ∧
    g.currentReignLastAccrualTime + (now - g.pausedSince) = s + pauses.onTime s now

namespace ReignClock

variable {g g' : Game} {now now' s : ℕ} {pauses : Timeline}

/-- A takeover starts the clock. -/
theorem fresh (hstart : g.currentReignLastAccrualTime = now) (hpaused : g.takeoversPaused = false)
    (hsince : g.pausedSince = 0) (pauses : Timeline) : ReignClock g now pauses now where
  start_le := hstart.ge
  le_now := hstart.le
  running _ := ⟨hsince, by rw [hstart, Timeline.onTime_self, Nat.add_zero]⟩
  stopped h := by
    rw [hpaused] at h
    cases h

/-- Time passes, and the pause is as it was last seen. -/
theorem advance {t : ℕ} (h : ReignClock g now ((t, g.takeoversPaused) :: pauses) s) (ht : t ≤ now)
    (hnow : now ≤ now') : ReignClock g now' ((t, g.takeoversPaused) :: pauses) s := by
  have hgrows := Timeline.onTime_advance (b := g.takeoversPaused) (l := pauses)
    (h.start_le.trans h.le_now) ht hnow
  refine ⟨h.start_le, h.le_now.trans hnow, fun hpaused ↦ ?_, fun hpaused ↦ ?_⟩
  · obtain ⟨hsince, hcursor⟩ := h.running hpaused
    rw [hgrows, hpaused, if_neg Bool.false_ne_true, Nat.add_zero, ← hpaused]
    exact ⟨hsince, hcursor⟩
  · obtain ⟨hsince, hcursor, hle, heq⟩ := h.stopped hpaused
    rw [if_pos hpaused] at hgrows
    refine ⟨hsince, hcursor, hle.trans hnow, ?_⟩
    omega

/-- A sample of the present does not change the past. -/
theorem sample (h : ReignClock g now pauses s) (b : Bool) :
    ReignClock g now ((now, b) :: pauses) s := by
  obtain ⟨hstart, hle, hrunning, hstopped⟩ := h
  refine ⟨hstart, hle, ?_, ?_⟩
  · rwa [Timeline.onTime_cons le_rfl]
  · rwa [Timeline.onTime_cons le_rfl]

/-- A change of the pause keeps the clock. -/
theorem setPaused (h : ReignClock g now pauses s) (hpos : 0 < now) (hking : g.currentKing ≠ 0)
    {paused : Bool} (hchanges : g.takeoversPaused = !paused)
    (hset : g.setPaused now paused = .ok g') : ReignClock g' now pauses s := by
  unfold Game.setPaused at hset
  cases paused with
  | true =>
      obtain ⟨-, hcursor⟩ := h.running hchanges
      rw [if_pos rfl, if_pos hking] at hset
      obtain rfl := Except.ok.inj hset
      refine ⟨h.start_le, h.le_now, nofun, fun _ ↦ ⟨hpos.ne', h.le_now, le_rfl, ?_⟩⟩
      rw [Nat.sub_self, Nat.add_zero]
      exact hcursor
  | false =>
      obtain ⟨hsince, hcursor, hle, heq⟩ := h.stopped hchanges
      rw [if_neg Bool.false_ne_true, if_pos hsince] at hset
      obtain ⟨duration, hduration, hset⟩ := bind_eq_ok_iff.mp hset
      obtain ⟨cursor, hmoved, hset⟩ := bind_eq_ok_iff.mp hset
      obtain ⟨-, rfl⟩ := usub_eq_ok.mp hduration
      obtain ⟨-, rfl⟩ := uint256_eq_ok.mp hmoved
      obtain rfl := Except.ok.inj hset
      have hstart := h.start_le
      refine ⟨?_, ?_, fun _ ↦ ⟨rfl, heq⟩, nofun⟩
      · dsimp only
        omega
      · dsimp only
        omega

end ReignClock

/-- What the contract holds about the current reign, next to the observations. -/
structure Accrual (o : Observed S) : Prop where
  now_pos : 0 < o.now
  sampled : o.pauses.head? = some (o.now, o.game.takeoversPaused)
  vacant : o.takeovers = [] → o.game.currentKing = 0 ∧ o.game.currentReignLastAccrualTime = 0 ∧
    o.game.pausedSince = 0
  reign : ∀ king s earlier, o.takeovers = (king, s) :: earlier → king ≠ 0 ∧
    o.game.currentKing = king ∧ ReignClock o.game o.now o.pauses s

namespace Accrual

variable {o : Observed S} {port}

theorem initial (h : (observed port).init o) : Accrual o := by
  obtain ⟨⟨hpos, self, royalties, helper, owner, mainnet, hcore⟩, hpauses, htakeovers⟩ := h
  have hgame : o.game = (MineCore.initial self royalties helper owner mainnet o.now).game :=
    congrArg CoreState.game hcore
  refine ⟨hpos, by rw [hpauses]; rfl, fun _ ↦ ?_, fun king s earlier h ↦ ?_⟩
  · rw [hgame]
    exact ⟨rfl, rfl, rfl⟩
  · rw [htakeovers] at h
    cases h

/-- The clock of the reign at a later time. -/
theorem clock_at (h : Accrual o) {king : Address} {s t : ℕ} {earlier : List (Address × ℕ)}
    (hreign : o.takeovers = (king, s) :: earlier) (ht : o.now ≤ t) :
    ReignClock o.game t o.pauses s := by
  obtain ⟨-, -, hclock⟩ := h.reign king s earlier hreign
  have hsampled := h.sampled
  generalize o.pauses = pauses at hsampled hclock ⊢
  cases pauses with
  | nil => cases hsampled
  | cons sample rest =>
      obtain rfl := Option.some.inj hsampled
      exact hclock.advance le_rfl ht

/-- A step that makes no king and keeps or sets the pause. -/
theorem extend_none (h : Accrual o) {c : Config S} (hc : o.now ≤ c.now)
    (hturn : c.world.core.game = o.game ∨ ∃ paused, o.game.takeoversPaused = !paused ∧
      o.game.setPaused c.now paused = .ok c.world.core.game) : Accrual (o.extend c none) := by
  have hpos : 0 < c.now := h.now_pos.trans_le hc
  refine ⟨hpos, rfl, fun htakeovers ↦ ?_, fun king s earlier hreign ↦ ?_⟩
  · obtain ⟨hking, hcursor, hsince⟩ := h.vacant htakeovers
    obtain hgame | ⟨paused, -, hset⟩ := hturn
    · exact ⟨(congrArg Game.currentKing hgame).trans hking,
        (congrArg Game.currentReignLastAccrualTime hgame).trans hcursor,
        (congrArg Game.pausedSince hgame).trans hsince⟩
    · obtain ⟨cursor, since, -, hvacant, hgame⟩ := setPaused_writes hset
      obtain ⟨hkept, hzero⟩ := hvacant hking hsince
      exact ⟨(congrArg Game.currentKing hgame).trans hking,
        (congrArg Game.currentReignLastAccrualTime hgame).trans (hkept.trans hcursor),
        (congrArg Game.pausedSince hgame).trans hzero⟩
  · obtain ⟨hne, hking, -⟩ := h.reign king s earlier hreign
    have hclock := h.clock_at hreign hc
    obtain hgame | ⟨paused, hchanges, hset⟩ := hturn
    · exact ⟨hne, (congrArg Game.currentKing hgame).trans hking, (hgame ▸ hclock).sample _⟩
    · refine ⟨hne, (setPaused_king hset).trans hking, ?_⟩
      exact (hclock.setPaused hpos (hking ▸ hne) hchanges hset).sample _

/-- A takeover starts a new reign. -/
theorem extend_some (h : Accrual o) {call : Call} {w : World S} {newKing : Address}
    (hc : o.now ≤ call.timestamp) (htaken : Taken call newKing o.core w.core) :
    Accrual (o.extend ⟨call.timestamp, w⟩ (some newKing)) := by
  obtain ⟨pricePaid, k, f, hover⟩ := htaken.takenOver
  have hsince : o.game.pausedSince = 0 := by
    cases hreign : o.takeovers with
    | nil => exact (h.vacant hreign).2.2
    | cons reign earlier =>
        obtain ⟨-, -, hclock⟩ := h.reign reign.1 reign.2 earlier hreign
        exact (hclock.running htaken.unpaused).1
  refine ⟨h.now_pos.trans_le hc, rfl, fun htakeovers ↦ ?_, fun king s earlier hreign ↦ ?_⟩
  · cases htakeovers
  · obtain ⟨hhead, -⟩ := List.cons.inj hreign
    obtain ⟨rfl, rfl⟩ := Prod.mk.inj hhead
    refine ⟨hover.king_ne, congrArg Game.currentKing hover.game, ?_⟩
    exact .fresh (congrArg Game.currentReignLastAccrualTime hover.game)
      ((congrArg Game.takeoversPaused hover.game).trans htaken.unpaused)
      ((congrArg Game.pausedSince hover.game).trans hsince) _

end Accrual

/-- The accounting holds in every observed run. -/
theorem reachable_accrual {o : Observed S} (ho : (observed port).Reachable o) : Accrual o := by
  refine ho.invariant (fun _ ↦ Accrual.initial) ?_
  rintro o o' - h hstep
  cases hstep with
  | @op w call op hnow hexec =>
      cases hking : op.newKing call with
      | some newKing =>
          exact h.extend_some hnow ((exec_taken port call o.config.world hking).of_ok hexec)
      | none =>
          refine h.extend_none hnow ?_
          cases (exec_turn port call o.config.world hking).of_ok hexec with
          | pauseChanged paused hpause => exact .inr ⟨paused, hpause.changes, hpause.set⟩
          | genesisCollected hgenesis => exact .inl hgenesis.game
          | idle hidle => exact .inl hidle.game
  | outside received furnace hnow => exact h.extend_none hnow (.inl rfl)

/-- The interval `[a, e]` that a takeover at `e` mines for a reign that started at
`s` is as long as the time since `s` in which takeovers were not paused. -/
structure Finalized (o : Observed S) (call : Call) (w : World S) (s : ℕ) : Prop where
  start_le : s ≤ o.game.currentReignLastAccrualTime
  le_end : o.game.currentReignLastAccrualTime ≤ call.timestamp
  length : (call.timestamp - o.game.currentReignLastAccrualTime) +
    o.pauses.onTime s call.timestamp = call.timestamp - s
  kingMined : kingEmitted o.core.genesis.emissionStartTime o.game.currentReignLastAccrualTime
    call.timestamp = .ok (w.core.reigns.reignInfo o.game.currentReignId).totalClaimMined
  kingMinted : w.core.ghost.kingMinted = o.core.ghost.kingMinted +
    (w.core.reigns.reignInfo o.game.currentReignId).totalClaimMined
  furnaceMinted : ∃ f, w.core.ghost.furnaceMinted = o.core.ghost.furnaceMinted + f ∧
    furnaceEmitted o.core.genesis.emissionStartTime o.game.currentReignLastAccrualTime
      call.timestamp = .ok f

theorem Accrual.finalized {o : Observed S} (h : Accrual o) {king : Address} {s : ℕ}
    {earlier : List (Address × ℕ)} (hreign : o.takeovers = (king, s) :: earlier) {call : Call}
    {w : World S} {newKing : Address} (hnow : o.now ≤ call.timestamp)
    (htaken : Taken call newKing o.core w.core) : Finalized o call w s := by
  obtain ⟨hne, hking, -⟩ := h.reign king s earlier hreign
  have hclock := h.clock_at hreign hnow
  obtain ⟨-, hcursor⟩ := hclock.running htaken.unpaused
  obtain ⟨pricePaid, k, f, hover⟩ := htaken.takenOver
  have hcurrent : o.core.game.currentKing ≠ 0 := hking ▸ hne
  have hle := hclock.le_now
  have hstart := hclock.start_le
  obtain ⟨hmined, -⟩ := hover.finalized hcurrent
  refine ⟨hstart, hle, by omega, ?_, ?_, f, hover.furnaceMinted, hover.furnaceMined⟩
  · exact (hover.kingMined hcurrent).trans (congrArg Except.ok hmined.symm)
  · exact hover.kingMinted.trans (congrArg _ hmined.symm)

/-- The cursor is not in the future, and stands no later than the start of a pause;
before the first takeover it is blank. -/
theorem reachable_cursor {c : Config S} (hc : (system port).Reachable c) :
    c.world.core.game.currentReignLastAccrualTime ≤ c.now ∧
    (c.world.core.game.takeoversPaused = true → c.world.core.game.currentKing ≠ 0 →
      c.world.core.game.currentReignLastAccrualTime ≤ c.world.core.game.pausedSince ∧
      c.world.core.game.pausedSince ≤ c.now) ∧
    (c.world.core.game.currentKing = 0 → c.world.core.game.currentReignLastAccrualTime = 0) := by
  obtain ⟨o, ho, rfl⟩ := exists_observed port hc
  have h := reachable_accrual port ho
  cases hreign : o.takeovers with
  | nil =>
      obtain ⟨hking, hcursor, -⟩ := h.vacant hreign
      exact ⟨hcursor.trans_le (Nat.zero_le _), fun _ hne ↦ absurd hking hne, fun _ ↦ hcursor⟩
  | cons reign earlier =>
      obtain ⟨hne, hking, hclock⟩ := h.reign reign.1 reign.2 earlier hreign
      refine ⟨hclock.le_now, fun hpaused _ ↦ ?_, fun hzero ↦ absurd (hking ▸ hzero) hne⟩
      obtain ⟨-, hcursor, hsince, -⟩ := hclock.stopped hpaused
      exact ⟨hcursor, hsince⟩

/-- Pauses neither forfeit nor mint time.  In every reachable state the cursor is
not in the future, and not behind the start of a pause; and a takeover mines, for
the reign that it finalizes, exactly the time in which takeovers were not
paused. -/
theorem pauses_preserve_reigns :
    (∀ c, (system port).Reachable c →
      let g := c.world.core.game
      g.currentReignLastAccrualTime ≤ c.now ∧
      (g.takeoversPaused = true → g.currentKing ≠ 0 →
        g.currentReignLastAccrualTime ≤ g.pausedSince ∧ g.pausedSince ≤ c.now)) ∧
    ∀ o, (observed port).Reachable o → ∀ king s earlier, o.takeovers = (king, s) :: earlier →
      ∀ call op newKing w, o.now ≤ call.timestamp → op.newKing call = some newKing →
        exec port call o.config.world op = .ok w → Finalized o call w s := by
  constructor
  · intro c hc
    obtain ⟨hcursor, hsince, -⟩ := reachable_cursor port hc
    exact ⟨hcursor, hsince⟩
  · intro o ho king s earlier hreign call op newKing w hnow hking hexec
    exact (reachable_accrual port ho).finalized hreign hnow
      ((exec_taken port call o.config.world hking).of_ok hexec)

/-- A reign of 30 seconds, with a pause of 10 seconds. -/
def pausedReign : List (Call × Op) :=
  opening ++
    [(gameCall 90010 21 ether (Nat.succ_pos _), .takeover plainReplies ether),
      (gameCall 90020 9 0 (Nat.succ_pos _), .setTakeoversPaused true),
      (gameCall 90030 9 0 (Nat.succ_pos _), .setTakeoversPaused false)]

def dethroning : Call := gameCall 90040 22 ether (Nat.succ_pos _)

theorem pauses_preserve_reigns_pausedReign :
    ∃ o w, (observed VeClaimNFT.acceptingPort).Reachable o ∧ o.takeovers = [(21, 90010)] ∧
      exec VeClaimNFT.acceptingPort dethroning o.config.world (.takeover plainReplies (10 ^ 18)) =
        .ok w ∧
      o.pauses.onTime 90010 90040 = 10 ∧ Finalized o dethroning w 90010 := by
  obtain ⟨o, ho, hlast⟩ := observed_witness VeClaimNFT.acceptingPort deployedGame pausedReign
    (fun o ↦ decide (o.takeovers = [(21, 90010)] ∧ o.now ≤ 90040 ∧
      o.pauses.onTime 90010 90040 = 10) && (exec VeClaimNFT.acceptingPort dethroning
        o.config.world (.takeover plainReplies (10 ^ 18))).isOk)
    deployedGame_init (by decide) (by decide +kernel)
  obtain ⟨hdecided, hok⟩ := Bool.and_eq_true_iff.mp hlast
  obtain ⟨htakeovers, hnow, hpaused⟩ := of_decide_eq_true hdecided
  cases hexec : exec VeClaimNFT.acceptingPort dethroning o.config.world
      (.takeover plainReplies (10 ^ 18)) with
  | error e =>
      rw [hexec] at hok
      cases hok
  | ok w =>
      refine ⟨o, w, ho, htakeovers, hexec, hpaused, ?_⟩
      exact (pauses_preserve_reigns VeClaimNFT.acceptingPort).2 o ho 21 90010 [] htakeovers
        dethroning _ 22 w hnow rfl hexec

end ClaimRush.MineCore
