import ClaimRush.VeClaimNFT.Tables

/-!
# What an operation logs

Readers of the chain see an operation through its events.  Besides notices about
metadata, failed checkpoints and clamped slopes, which no reader applies, each
operation appends a list of events that its arguments and the storage before it
determine.
-/

open Function

namespace ClaimRush.VeClaimNFT

open Constants VeState

/-- An event about a lock, its owner or the Furnace. -/
def Event.tracked : Event → Bool
  | Transfer .. | LockCreated .. | LockAmountIncreased .. | LockExtended .. | LockMerged ..
  | LockUnlocked .. | AutoMaxSet .. | FurnaceChanged .. => true
  | _ => false

namespace VeState

/-- The storage `s'` has the events of `s` and then `es`, tracked as `log`. -/
def Appends (log : List Event) (s s' : VeState) : Prop :=
  ∃ es, s'.events = s.events ++ es ∧ es.filter Event.tracked = log

theorem Appends.of_quiet {s s' : VeState} {es : List Event} (log : List Event)
    (hes : es.filter Event.tracked = []) (h : s'.events = s.events ++ (es ++ log)) :
    Appends (log.filter Event.tracked) s s' :=
  ⟨es ++ log, h, by rw [List.filter_append, hes, List.nil_append]⟩

/-- A notice adds nothing that is tracked. -/
theorem Appends.notice {log : List Event} {s s' : VeState} {e : Event} (h : Appends log s s')
    (he : e.tracked = false) : Appends log s (s'.emit e) := by
  obtain ⟨es, hes, rfl⟩ := h
  refine ⟨es ++ [e], ?_, by simp [he]⟩
  rw [VeState.emit, hes, List.append_assoc]

/-- The tracked events between `s` and `s'`. -/
def tailLog (s s' : VeState) : List Event :=
  (s'.events.drop s.events.length).filter Event.tracked

theorem Appends.tailLog_eq {log : List Event} {s s' : VeState} (h : Appends log s s') :
    s.tailLog s' = log := by
  obtain ⟨es, hes, rfl⟩ := h
  rw [tailLog, hes, List.drop_left]

/-- `s'` is `s` with other accumulators and with notices in the log. -/
def Quietly (s s' : VeState) : Prop :=
  ∃ g es, s' = { s with global := g, events := s.events ++ es } ∧ es.filter Event.tracked = []

theorem Quietly.refl (s : VeState) : s.Quietly s :=
  ⟨s.global, [], by simp, rfl⟩

theorem Quietly.trans {s s' s'' : VeState} (h : s.Quietly s') (h' : s'.Quietly s'') :
    s.Quietly s'' := by
  obtain ⟨g, es, rfl, hes⟩ := h
  obtain ⟨g', es', rfl, hes'⟩ := h'
  exact ⟨g', es ++ es', by simp, by simp [hes, hes']⟩

theorem Quietly.emit {s : VeState} {e : Event} (he : e.tracked = false) : s.Quietly (s.emit e) :=
  ⟨s.global, [e], rfl, by simp [he]⟩

end VeState

/-! ## Checkpoints -/

theorem applyScheduledChange_quiet (g : GlobalState) (time : ℕ) :
    (g.applyScheduledChange time).2.filter Event.tracked = [] := by
  unfold GlobalState.applyScheduledChange
  dsimp only
  split_ifs <;> rfl

theorem checkpointLoop_quiet (nowTs budget : ℕ) (g : GlobalState) (t : ℕ) (log : List Event)
    (hlog : log.filter Event.tracked = []) :
    Returns (fun r ↦ r.2.2.filter Event.tracked = [])
      (GlobalState.checkpointLoop nowTs budget g t log) := by
  induction budget generalizing g t log with
  | zero => exact hlog
  | succ budget ih =>
      unfold GlobalState.checkpointLoop
      refine Returns.ite (fun _ ↦ hlog) fun _ ↦ Returns.seq fun dt _ ↦ ih _ _ _ ?_
      rw [List.filter_append, hlog]
      exact applyScheduledChange_quiet _ _

theorem checkpointGlobal_quiet (s : VeState) (nowTs : ℕ) :
    Returns s.Quietly (s.checkpointGlobalStateInternal nowTs) := by
  unfold VeState.checkpointGlobalStateInternal GlobalState.checkpointGlobalStateInternal
  refine Outcome.bind (Q := fun r ↦ r.2.filter Event.tracked = []) ?_ fun r hr ↦
    ⟨r.1, r.2, rfl, hr⟩
  refine Outcome.bind (checkpointLoop_quiet _ _ _ _ _ rfl) fun r hr ↦ ?_
  exact Returns.ite (fun _ ↦ Returns.seq fun _ _ ↦ hr) fun _ ↦ hr

section Royalties

variable {S : Type} (port : IShareholderRoyalties S) (call : Call) (w : World S)

theorem beginMutation_quiet (user : Address) :
    Returns (fun w' ↦ w.ve.Quietly w'.ve) (beginMutation port call w user) := by
  refine Outcome.bind (checkpointGlobal_quiet w.ve call.timestamp) fun s hs ↦ ?_
  refine (Returns.of_outcome (checkpointShareholderRoyalties_spec port call user)).weaken ?_
  rintro w' ⟨hve, -⟩
  exact hve ▸ hs

theorem bestEffort_quiet (user : Address) :
    w.ve.Quietly (checkpointShareholderRoyaltiesBestEffort call port w user).ve := by
  unfold checkpointShareholderRoyaltiesBestEffort
  dsimp only
  split_ifs
  · exact .refl _
  · split
    · exact .refl _
    · exact .emit rfl

theorem Appends.pin {log : List Event} {s : VeState} {w : World S} (h : Appends log s w.ve)
    (user : Address) : Appends log s (pinShareholderObservedMin call port w user).ve := by
  rwa [pinShareholderObservedMin_ve]

end Royalties

/-! ## Operations -/

/-- The tracked events of an operation. -/
def Op.log (call : Call) (s : VeState) : Op → List Event
  | .createLockFor user amount duration autoMax =>
      [.Transfer 0 user s.nextTokenId,
        .LockCreated user s.nextTokenId amount (call.timestamp + duration) autoMax]
  | .addToLockFor user tokenId amount => [.LockAmountIncreased user tokenId amount]
  | .extendLockToFor user tokenId newEnd =>
      [.LockExtended user tokenId (s.locks tokenId).lockEnd
        (extendedEnd call.timestamp newEnd (s.locks tokenId))]
  | .mergeLocksFor user fromTokenId intoTokenId =>
      [.Transfer user 0 fromTokenId,
        .LockMerged user fromTokenId intoTokenId (s.locks fromTokenId).amount]
  | .setAutoMax tokenId enabled =>
      if (s.locks tokenId).autoMax = false ∧ enabled = false then []
      else [.AutoMaxSet call.sender tokenId enabled]
  | .unlock tokenId =>
      [.Transfer call.sender 0 tokenId,
        .LockUnlocked call.sender tokenId (s.locks tokenId).amount]
  | .unlockExpiredForUser user tokenId =>
      [.Transfer user 0 tokenId, .LockUnlocked user tokenId (s.locks tokenId).amount]
  | .furnaceBurnAndWithdraw tokenId _ =>
      [.Transfer s.furnace 0 tokenId, .LockUnlocked s.furnace tokenId (s.locks tokenId).amount]
  | .transferFrom src dst tokenId => [.Transfer src dst tokenId]
  | .safeTransferFrom src dst tokenId => [.Transfer src dst tokenId]
  | .setFurnace furnace => [.FurnaceChanged s.furnace furnace]
  | .setListed _ _ => []
  | .checkpointGlobalState => []
  | .setMineMarket _ => []
  | .freezeConfig => []

section Operations

variable {S : Type} (port : IShareholderRoyalties S) (call : Call) (w : World S)

theorem createLock_log (payer user : Address) (amount duration : ℕ) (autoMax : Bool) :
    Returns (fun w' ↦ Appends [.Transfer 0 user w.ve.nextTokenId,
        .LockCreated user w.ve.nextTokenId amount (call.timestamp + duration) autoMax] w.ve w'.ve)
      (createLock port call w payer user amount duration autoMax) := by
  unfold createLock
  refine Returns.guard fun _ ↦ Returns.guard fun _ ↦ Returns.guard fun _ ↦ ?_
  refine Returns.guard fun _ ↦ Returns.guard fun hauto ↦ Returns.guard fun _ ↦ ?_
  refine Returns.seq fun lockEnd hend ↦ ?_
  obtain ⟨-, rfl⟩ := uint256_eq_ok.mp hend
  have hchosen : (if autoMax = true then MAX_LOCK_DURATION else duration) = duration := by
    split_ifs with h
    · exact (not_not.mp fun hne ↦ hauto ⟨h, hne⟩).symm
    · rfl
  rw [hchosen]
  refine Outcome.bind (beginMutation_quiet port call w user) ?_
  rintro ⟨ve, royalties, claim⟩ ⟨g, es, rfl, hes⟩
  refine Returns.guard fun _ ↦ Returns.seq fun g' _ ↦ Returns.seq fun total _ ↦ ?_
  refine Returns.seq fun next _ ↦ Returns.seq fun m hm ↦ Returns.seq fun claim _ ↦ ?_
  obtain ⟨-, hvacant, -, rfl⟩ := VeState.mint_eq_ok hm
  have hvacant : w.ve.owners w.ve.nextTokenId = 0 := hvacant
  refine Appends.pin port call (.of_quiet [.Transfer 0 user w.ve.nextTokenId, .LockCreated user
    w.ve.nextTokenId amount (call.timestamp + duration) autoMax] hes ?_) user
  simp [emit, setLock, minted, addTokenToOwnerEnumeration, baseUpdate, hvacant]

theorem addToLock_log (payer user : Address) (tokenId amount : ℕ) :
    Returns (fun w' ↦ Appends [.LockAmountIncreased user tokenId amount] w.ve w'.ve)
      (addToLock port call w payer user tokenId amount) := by
  unfold addToLock
  refine Returns.guard fun _ ↦ Returns.guard fun _ ↦ Returns.guard fun _ ↦ ?_
  refine Returns.guard fun _ ↦ Returns.seq fun _ _ ↦ ?_
  refine Outcome.bind (beginMutation_quiet port call w user) ?_
  rintro ⟨ve, royalties, claim⟩ ⟨g, es, rfl, hes⟩
  refine Returns.guard fun _ ↦ Returns.seq fun newAmt _ ↦ Returns.seq fun lockEnd _ ↦ ?_
  refine Returns.seq fun g' _ ↦ Returns.seq fun total _ ↦ Returns.seq fun claim _ ↦ ?_
  refine Appends.pin port call (.of_quiet [.LockAmountIncreased user tokenId amount,
    .MetadataUpdate tokenId] hes ?_) user
  simp [emit, setLock]

theorem extendLockToFor_log (user : Address) (tokenId newEnd : ℕ) :
    Returns (fun w' ↦ Appends [.LockExtended user tokenId (w.ve.locks tokenId).lockEnd
        (extendedEnd call.timestamp newEnd (w.ve.locks tokenId))] w.ve w'.ve)
      (extendLockToFor port call w user tokenId newEnd) := by
  unfold extendLockToFor
  refine Returns.seq fun _ _ ↦ Returns.guard fun _ ↦ Returns.guard fun _ ↦ ?_
  refine Returns.seq fun _ _ ↦ Returns.ite (fun hauto ↦ ?_) fun hdecay ↦ ?_
  · refine Outcome.bind (beginMutation_quiet port call w user) ?_
    rintro ⟨ve, royalties, claim⟩ ⟨g, es, rfl, hes⟩
    refine Returns.seq fun targetEnd htarget ↦ ?_
    obtain ⟨-, rfl⟩ := uint256_eq_ok.mp htarget
    rw [extendedEnd, if_pos hauto]
    exact .of_quiet [.LockExtended user tokenId _ _] hes (List.append_assoc _ _ _)
  · refine Returns.guard fun _ ↦ Returns.seq fun maxEnd _ ↦ Returns.guard fun _ ↦ ?_
    unfold extendLockToInternal
    refine Returns.guard fun _ ↦ ?_
    refine Outcome.bind (beginMutation_quiet port call w user) ?_
    rintro ⟨ve, royalties, claim⟩ ⟨g, es, rfl, hes⟩
    refine Returns.guard fun _ ↦ Returns.seq fun g' _ ↦ ?_
    rw [extendedEnd, if_neg hdecay]
    refine Appends.pin port call (.of_quiet [.LockExtended user tokenId _ newEnd,
      .MetadataUpdate tokenId] hes ?_) user
    simp [emit, setLock]

theorem mergeLocksInternal_log (user : Address) (fromTokenId intoTokenId : ℕ) :
    Returns (fun w' ↦ Appends [.Transfer user 0 fromTokenId,
        .LockMerged user fromTokenId intoTokenId (w.ve.locks fromTokenId).amount] w.ve w'.ve)
      (mergeLocksInternal port call w user fromTokenId intoTokenId) := by
  unfold mergeLocksInternal
  refine Returns.guard fun _ ↦ Returns.seq fun fromL hfrom ↦ Returns.seq fun intoL _ ↦ ?_
  obtain ⟨howner, rfl⟩ := requireOwnedLock_eq_ok hfrom
  refine Returns.seq fun _ _ ↦ Returns.seq fun _ _ ↦ ?_
  refine Outcome.bind (beginMutation_quiet port call w user) ?_
  rintro ⟨ve, royalties, claim⟩ ⟨g, es, rfl, hes⟩
  refine Returns.guard fun _ ↦ Returns.seq fun newAmt _ ↦ Returns.seq fun newEnd _ ↦ ?_
  refine Returns.seq fun g' _ ↦ Returns.seq fun m hm ↦ ?_
  obtain ⟨-, rfl⟩ := VeState.burn_eq_ok hm
  refine Appends.pin port call (.of_quiet [.Transfer user 0 fromTokenId, .LockMerged user
    fromTokenId intoTokenId (w.ve.locks fromTokenId).amount, .MetadataUpdate intoTokenId] hes ?_)
    user
  simp [emit, setLock, burned, removed, baseUpdate, howner]

theorem setAutoMax_log (tokenId : ℕ) (enabled : Bool) :
    Returns (fun w' ↦ Appends (if (w.ve.locks tokenId).autoMax = false ∧ enabled = false then []
        else [.AutoMaxSet call.sender tokenId enabled]) w.ve w'.ve)
      (setAutoMax port call w tokenId enabled) := by
  unfold setAutoMax
  refine Returns.seq fun l hl ↦ ?_
  obtain ⟨-, rfl⟩ := requireOwnedLock_eq_ok hl
  refine Returns.seq fun _ _ ↦ ?_
  refine Returns.ite (fun hsame ↦ Returns.ite (fun hon ↦ ?_) fun hoff ↦ ?_) fun hother ↦ ?_
  · refine Outcome.bind (beginMutation_quiet port call w call.sender) ?_
    rintro ⟨ve, royalties, claim⟩ ⟨g, es, rfl, hes⟩
    refine Returns.guard fun _ ↦ Returns.seq fun lockEnd _ ↦ ?_
    rw [if_neg fun h ↦ by simp [hon] at h]
    exact .of_quiet [.AutoMaxSet call.sender tokenId enabled] hes (List.append_assoc _ _ _)
  · have hoff : enabled = false := by simpa using hoff
    rw [if_pos ⟨hsame.trans hoff, hoff⟩]
    exact ⟨[], (List.append_nil _).symm, rfl⟩
  · refine Outcome.bind (beginMutation_quiet port call w call.sender) ?_
    rintro ⟨ve, royalties, claim⟩ ⟨g, es, rfl, hes⟩
    refine Returns.guard fun _ ↦ Returns.seq fun newEnd _ ↦ Returns.seq fun g' _ ↦ ?_
    rw [if_neg fun h ↦ hother (h.1.trans h.2.symm)]
    refine Appends.pin port call (.of_quiet [.AutoMaxSet call.sender tokenId enabled,
      .MetadataUpdate tokenId] hes ?_) call.sender
    simp [emit, setLock]

theorem unlockTo_log (tokenOwner : Address) (tokenId : ℕ) (recipient : Address) :
    Returns (fun w' ↦ Appends [.Transfer tokenOwner 0 tokenId,
        .LockUnlocked tokenOwner tokenId (w.ve.locks tokenId).amount] w.ve w'.ve)
      (unlockTo port call w tokenOwner tokenId recipient) := by
  unfold unlockTo
  refine Returns.guard fun _ ↦ Returns.seq fun l hl ↦ ?_
  obtain ⟨howner, rfl⟩ := requireOwnedLock_eq_ok hl
  refine Returns.guard fun _ ↦ Returns.guard fun _ ↦ Returns.guard fun _ ↦ ?_
  refine Outcome.bind (beginMutation_quiet port call w tokenOwner) ?_
  rintro ⟨ve, royalties, claim⟩ ⟨g, es, rfl, hes⟩
  refine Returns.guard fun _ ↦ Returns.seq fun g' _ ↦ Returns.seq fun total _ ↦ ?_
  refine Returns.seq fun m hm ↦ Returns.seq fun claim _ ↦ ?_
  obtain ⟨-, rfl⟩ := VeState.burn_eq_ok hm
  refine .of_quiet [.Transfer tokenOwner 0 tokenId, .LockUnlocked tokenOwner tokenId
    (w.ve.locks tokenId).amount] hes ?_
  simp [emit, setLock, burned, removed, baseUpdate, howner]

theorem furnaceBurnAndWithdraw_log (tokenId : ℕ) (recipient : Address) :
    Returns (fun w' ↦ Appends [.Transfer w.ve.furnace 0 tokenId,
        .LockUnlocked w.ve.furnace tokenId (w.ve.locks tokenId).amount] w.ve w'.ve)
      (furnaceBurnAndWithdraw port call w tokenId recipient) := by
  unfold furnaceBurnAndWithdraw
  refine Returns.seq fun _ _ ↦ Returns.guard fun _ ↦ Returns.guard fun howner ↦ ?_
  have howner : w.ve.owners tokenId = w.ve.furnace := not_not.mp howner
  refine Returns.guard fun _ ↦ ?_
  refine Outcome.bind (checkpointGlobal_quiet w.ve call.timestamp) ?_
  rintro ve ⟨g, es, rfl, hes⟩
  have hquiet : w.ve.Quietly _ := .trans ⟨g, es, rfl, hes⟩ (bestEffort_quiet port call
    { w with ve := { w.ve with global := g, events := w.ve.events ++ es } } w.ve.furnace)
  revert hquiet
  dsimp only
  generalize checkpointShareholderRoyaltiesBestEffort call port
    { w with ve := { w.ve with global := g, events := w.ve.events ++ es } } w.ve.furnace = w₁
  obtain ⟨ve, royalties, claim⟩ := w₁
  rintro ⟨g', es', rfl, hes'⟩
  refine Returns.guard fun _ ↦ Returns.seq fun g' _ ↦ Returns.seq fun total _ ↦ ?_
  refine Returns.seq fun m hm ↦ Returns.seq fun claim _ ↦ ?_
  obtain ⟨-, rfl⟩ := VeState.burn_eq_ok hm
  refine .of_quiet [.Transfer w.ve.furnace 0 tokenId, .LockUnlocked w.ve.furnace tokenId
    (w.ve.locks tokenId).amount] hes' ?_
  simp [emit, setLock, burned, removed, baseUpdate, howner]

theorem transferFrom_log (src dst : Address) (tokenId : ℕ) :
    Returns (fun w' ↦ Appends [.Transfer src dst tokenId] w.ve w'.ve)
      (transferFrom port call w src dst tokenId) := by
  unfold transferFrom
  refine Returns.guard fun hdst ↦ Returns.guard fun hlive ↦ ?_
  refine Outcome.bind (checkpointGlobal_quiet w.ve call.timestamp) ?_
  rintro ve ⟨g, es, rfl, hes⟩
  refine Returns.guard fun _ ↦ ?_
  refine Outcome.bind (Returns.of_outcome (checkpointShareholderRoyalties_spec port call _)) ?_
  rintro ⟨ve, royalties, claim⟩ ⟨rfl, rfl⟩
  refine Outcome.bind (Returns.of_outcome (checkpointShareholderRoyalties_spec port call _)) ?_
  rintro ⟨ve, royalties, claim⟩ ⟨rfl, rfl⟩
  refine Returns.seq fun _ _ ↦ Returns.guard fun _ ↦ Returns.guard fun _ ↦ ?_
  refine Returns.seq fun m hm ↦ ?_
  obtain ⟨-, rfl⟩ :=
    VeState.hand_eq_ok (s := { w.ve with global := g, events := w.ve.events ++ es }) hlive hdst hm
  refine Returns.guard fun hsrc ↦ ?_
  have hsrc : w.ve.owners tokenId = src := not_not.mp hsrc
  refine Appends.pin port call (Appends.pin port call (.of_quiet [.Transfer src dst tokenId] hes ?_)
    _) dst
  simp [handed, removed, addTokenToOwnerEnumeration, baseUpdate, hsrc]

/-- Every operation logs what its arguments and the storage before it determine. -/
theorem exec_log (op : Op) :
    Returns (fun w' ↦ Appends (op.log call w.ve) w.ve w'.ve) (exec port call w op) := by
  have hsame {s s' : VeState} (h : s'.events = s.events) : Appends [] s s' :=
    ⟨[], by simp [h], rfl⟩
  cases op with
  | createLockFor user amount duration autoMax =>
      exact Returns.seq fun _ _ ↦ createLock_log port call w _ _ _ _ _
  | addToLockFor user tokenId amount =>
      exact Returns.seq fun _ _ ↦ addToLock_log port call w _ _ _ _
  | extendLockToFor user tokenId newEnd => exact extendLockToFor_log port call w _ _ _
  | mergeLocksFor user fromTokenId intoTokenId =>
      exact Returns.seq fun _ _ ↦ mergeLocksInternal_log port call w _ _ _
  | setAutoMax tokenId enabled => exact setAutoMax_log port call w _ _
  | unlock tokenId => exact unlockTo_log port call w _ _ _
  | unlockExpiredForUser user tokenId =>
      exact Returns.seq fun _ _ ↦
        Outcome.bind (unlockTo_log port call w _ _ _) fun w' h ↦ h.notice rfl
  | furnaceBurnAndWithdraw tokenId recipient =>
      exact furnaceBurnAndWithdraw_log port call w _ _
  | transferFrom src dst tokenId => exact transferFrom_log port call w _ _ _
  | safeTransferFrom src dst tokenId =>
      exact Outcome.bind (transferFrom_log port call w _ _ _) fun w' h ↦ Returns.guard fun _ ↦ h
  | setListed tokenId listed =>
      refine Returns.seq fun _ _ ↦ Returns.guard fun _ ↦ Returns.ite (fun _ ↦ ?_) fun _ ↦ ?_
      · exact Returns.guard fun _ ↦ Returns.guard fun _ ↦ (hsame rfl).notice rfl
      · exact (hsame rfl).notice rfl
  | checkpointGlobalState =>
      refine Outcome.bind (checkpointGlobal_quiet w.ve call.timestamp) ?_
      rintro s ⟨g, es, rfl, hes⟩
      exact ⟨es, rfl, hes⟩
  | setMineMarket mineMarket =>
      refine Returns.guard fun _ ↦ Returns.guard fun _ ↦ Returns.guard fun _ ↦ ?_
      refine Returns.guard fun _ ↦ Returns.guard fun _ ↦ Returns.seq fun _ _ ↦ ?_
      exact (hsame rfl).notice rfl
  | setFurnace furnace =>
      refine Returns.guard fun _ ↦ Returns.guard fun _ ↦ Returns.guard fun _ ↦ ?_
      refine Returns.guard fun _ ↦ Returns.guard fun _ ↦ Returns.seq fun _ _ ↦ ?_
      exact ⟨[.FurnaceChanged _ _], rfl, rfl⟩
  | freezeConfig =>
      have hfrozen : Appends [] w.ve ({ w.ve with configFrozen := true }.emit .ConfigFrozen) :=
        (hsame rfl).notice rfl
      refine Returns.guard fun _ ↦ Returns.guard fun _ ↦ Returns.guard fun _ ↦ ?_
      refine Returns.guard fun _ ↦ Returns.seq fun _ _ ↦ Returns.guard fun _ ↦ ?_
      refine Returns.seq fun sr _ ↦ Returns.ite (fun _ ↦ ?_) fun _ ↦ hfrozen
      exact Returns.guard fun _ ↦ Returns.guard fun _ ↦ hfrozen

/-! ## The Furnace -/

/-- The Furnace after an operation. -/
def Op.furnaceAfter (s : VeState) : Op → Address
  | .setFurnace furnace => furnace
  | _ => s.furnace

theorem exec_furnace (op : Op) :
    Returns (fun w' ↦ w'.ve.furnace = op.furnaceAfter w.ve) (exec port call w op) := by
  have hkeeps {s s' : VeState} (h : s.Follows s') (hs : s.furnace = w.ve.furnace) :
      s'.furnace = w.ve.furnace := (h.keeps (·.furnace) fun _ _ ↦ rfl).trans hs
  cases op with
  | setMineMarket mineMarket =>
      refine Returns.guard fun _ ↦ Returns.guard fun _ ↦ Returns.guard fun _ ↦ ?_
      exact Returns.guard fun _ ↦ Returns.guard fun _ ↦ Returns.seq fun _ _ ↦ rfl
  | setFurnace furnace =>
      refine Returns.guard fun _ ↦ Returns.guard fun _ ↦ Returns.guard fun _ ↦ ?_
      exact Returns.guard fun _ ↦ Returns.guard fun _ ↦ Returns.seq fun _ _ ↦ rfl
  | freezeConfig =>
      refine Returns.guard fun _ ↦ Returns.guard fun _ ↦ Returns.guard fun _ ↦ ?_
      refine Returns.guard fun _ ↦ Returns.seq fun _ _ ↦ Returns.guard fun _ ↦ ?_
      refine Returns.seq fun sr _ ↦ Returns.ite (fun _ ↦ ?_) fun _ ↦ rfl
      exact Returns.guard fun _ ↦ Returns.guard fun _ ↦ rfl
  | createLockFor | addToLockFor | extendLockToFor | mergeLocksFor =>
      exact (exec_effect port call w _).weaken fun _ h ↦ hkeeps h.2.ve rfl
  | furnaceBurnAndWithdraw =>
      exact (exec_effect port call w _).weaken fun _ h ↦ hkeeps h.2.2.ve rfl
  | setAutoMax | unlock | unlockExpiredForUser | transferFrom | safeTransferFrom | setListed
  | checkpointGlobalState =>
      exact (exec_effect port call w _).weaken fun _ h ↦ hkeeps h.ve rfl

/-- No lock is created before the Furnace is wired. -/
theorem createLockFor_wired (user : Address) (amount duration : ℕ) (autoMax : Bool) :
    Returns (fun _ ↦ w.ve.furnace ≠ 0)
      (exec port call w (.createLockFor user amount duration autoMax)) := by
  refine Returns.seq fun _ hcaller ↦ ?_
  have hne := (requireCanonicalFurnaceCaller_eq_ok call hcaller).2
  exact (createLock_log port call w call.sender user amount duration autoMax).weaken fun _ _ ↦ hne

theorem setFurnace_ne (furnace : Address) :
    Returns (fun _ ↦ furnace ≠ 0) (exec port call w (.setFurnace furnace)) := by
  refine Returns.guard fun _ ↦ Returns.guard fun _ ↦ Returns.guard fun hne ↦ ?_
  exact Returns.guard fun _ ↦ Returns.guard fun _ ↦ Returns.seq fun _ _ ↦ hne

end Operations

end ClaimRush.VeClaimNFT
