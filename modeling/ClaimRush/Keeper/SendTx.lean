import ClaimRush.Keeper.CircuitBreaker
import Mathlib.Data.Int.Notation

/-!
# Sending a transaction

`sendContractTx` checks both pause records, prices the transaction, checks the
records again, submits and waits for the receipt.  What the network answers is
an argument; a call leaves the files as one of four transitions.
-/

namespace ClaimRush.Keeper

/-! ## The payout audit -/

structure PayoutBoundViolation where
  reason : String
  balanceDeltaWei : ℤ
  totalCostWei : ℤ
  deriving DecidableEq, Repr

/-- `assertKeeperEoaPayoutBound`: the account pays the cost and nothing else. -/
def assertKeeperEoaPayoutBound (balanceBeforeWei balanceAfterWei totalCostWei : ℤ) :
    Option PayoutBoundViolation :=
  let balanceDeltaWei := balanceAfterWei - balanceBeforeWei
  let outflowWei := -balanceDeltaWei
  if totalCostWei < 0 then
    some ⟨"totalCostWei < 0 — receipt parsing must be wrong", balanceDeltaWei, totalCostWei⟩
  else if balanceDeltaWei = -totalCostWei then none
  else if 0 < balanceDeltaWei then
    some ⟨"keeper EOA received " ++ balanceDeltaWei.repr ++
      " wei from this tx — no task should pay msg.sender", balanceDeltaWei, totalCostWei⟩
  else if totalCostWei < outflowWei then
    some ⟨"keeper EOA outflow " ++ outflowWei.repr ++ " wei exceeds totalCost " ++
      totalCostWei.repr ++ " wei by " ++ (outflowWei - totalCostWei).repr ++
      " wei — unauthorized withdrawal", balanceDeltaWei, totalCostWei⟩
  else
    some ⟨"keeper EOA received " ++ (totalCostWei - outflowWei).repr ++ " wei (outflow " ++
      outflowWei.repr ++ " wei < totalCost " ++ totalCostWei.repr ++
      " wei) — no task should pay msg.sender", balanceDeltaWei, totalCostWei⟩

/-- The audit finds nothing exactly when the balance falls by the cost. -/
theorem assertKeeperEoaPayoutBound_eq_none {before after cost : ℤ} :
    assertKeeperEoaPayoutBound before after cost = none ↔ 0 ≤ cost ∧ after = before - cost := by
  unfold assertKeeperEoaPayoutBound
  dsimp only
  split_ifs with hneg hexact hpaid hout
  · simp only [false_iff]
    omega
  · simp only [true_iff]
    omega
  all_goals
    simp only [false_iff]
    omega

structure Receipt where
  /-- `receiptStatusOk`. -/
  statusOk : Option Bool
  gasUsed : Option ℤ
  effectiveGasPrice : Option ℤ
  l1Fee : Option ℤ
  deriving DecidableEq, Repr

/-- The audit of a confirmed transaction; a failed read disables it. -/
def auditPayout (balanceBefore balanceAfter : Option ℤ) (receipt : Receipt) :
    Option PayoutBoundViolation :=
  match balanceBefore, balanceAfter, receipt.gasUsed, receipt.effectiveGasPrice with
  | some balanceBeforeWei, some balanceAfterWei, some gasUsed, some effectiveGasPrice =>
      assertKeeperEoaPayoutBound balanceBeforeWei balanceAfterWei
        (gasUsed * effectiveGasPrice + receipt.l1Fee.getD 0)
  | _, _, _, _ => none

/-! ## Answers and results -/

/-- An error of the RPC: its message, and what `isFeeCapTooLowErrorMessage` says of it. -/
structure RpcError where
  message : String
  feeCapTooLow : Bool
  deriving DecidableEq, Repr

/-- What the network answers during a call. -/
structure Answers where
  /-- The latest and the pending nonce. -/
  nonceCounts : Except RpcError (ℕ × ℕ)
  baseFee : Option ℕ
  estimate : Except RpcError ℕ
  baseFeeRecheck : Option ℕ
  balanceBefore : Option ℤ
  /-- `writeContract`: the hash. -/
  broadcast : Except RpcError String
  /-- `waitForReceiptWithConfirmations`. -/
  receipt : Except RpcError Receipt
  balanceAfter : Option ℤ

/-- The readings of the clock in a call, in order. -/
structure CallClock where
  pauseCheck : ℕ
  breakerCheck : ℕ
  estimateFailure : FailureClock
  pauseRecheck : ℕ
  breakerRecheck : ℕ
  submitted : ℕ
  sendFailure : FailureClock
  succeeded : ℕ
  returned : ℕ
  ordered : [pauseCheck, breakerCheck, estimateFailure.now, estimateFailure.pausedFrom,
    pauseRecheck, breakerRecheck, submitted, sendFailure.now, sendFailure.pausedFrom, succeeded,
    returned].Pairwise (· ≤ ·)

/-- A failure at one reading of the clock. -/
def FailureClock.atOnce (t : ℕ) : FailureClock :=
  ⟨t, t, t, t, t, by simp only [List.pairwise_cons]; simp⟩

/-- A call at one reading of the clock. -/
def CallClock.atOnce (t : ℕ) : CallClock :=
  ⟨t, t, .atOnce t, t, t, t, .atOnce t, t, t, by simp [FailureClock.atOnce]⟩

/-- A breaker with a cooldown of a minute, and no rails. -/
def breakerConfig (failures : ℕ) : KeeperConfig where
  paused := false
  dryRun := false
  circuitBreakerEnabled := true
  circuitBreakerMaxFailures := failures
  circuitBreakerCooldownMs := some 60000
  allowTxWhilePending := false
  txGasLimitMultiplierBps := 10000
  txMaxFeePerGasWei := none
  txMaxGasLimit := none
  txMaxTotalFeeWei := none

/-- One call. -/
structure SendArgs where
  minGasLimit : Option ℕ
  clock : CallClock
  answers : Answers

inductive SendTxSkipCode
  | paused
  | dry_run
  | pending_guard
  | fee_cap
  | gas_limit_cap
  | total_fee_cap
  deriving DecidableEq, Repr

inductive SendTxResult
  | sent (hash : String) (receipt : Receipt) (gasLimit : ℕ)
      (payoutBoundViolation : Option PayoutBoundViolation)
  | skipped (code : SendTxSkipCode)
  | threw (message : String)
  deriving DecidableEq, Repr

def SendTxResult.payoutBoundViolation : SendTxResult → Option PayoutBoundViolation
  | .sent _ _ _ violation => violation
  | .skipped _ => none
  | .threw _ => none

/-- A finished call: its files and result, the instant of `writeContract`, whether a failure was
recorded, and the end of the pause when the breaker tripped. -/
structure Finished where
  files : Files
  result : SendTxResult
  submittedAt : Option ℕ := none
  failed : Bool := false
  trip : Option (Option ℕ) := none

/-! ## The call -/

section Call

variable (config : KeeperConfig) (args : SendArgs)

/-- Either record stops the call. -/
def pausedAt (pauseCheck breakerCheck : ℕ) (f : Files) : Bool :=
  (getPauseInfo config pauseCheck f.pauseFile).1.paused ||
    (getCircuitBreakerPauseInfo config breakerCheck f.state).paused

/-- The files after the pause file was read. -/
def readPauseFile (now : ℕ) (f : Files) : Files :=
  { f with pauseFile := (getPauseInfo config now f.pauseFile).2 }

/-- `pendingGuard`. -/
def pendingGuard : Option SendTxResult :=
  if config.allowTxWhilePending then none
  else match args.answers.nonceCounts with
    | .error e => some (.threw e.message)
    | .ok (latest, pending) => if latest < pending then some (.skipped .pending_guard) else none

/-- The base fee already exceeds the configured cap. -/
def feeCapExceeded (baseFee : Option ℕ) : Bool :=
  match config.txMaxFeePerGasWei, baseFee with
  | some cap, some baseWei => decide (cap < baseWei)
  | _, _ => false

/-- `gasLimit`: the estimate with its multiplier, at least the floor. -/
def gasLimit (estimate : ℕ) : ℕ :=
  max ((estimate * config.txGasLimitMultiplierBps + 9999) / 10000) (args.minGasLimit.getD 0)

/-- The rails between the estimate and the second check of the pause records. -/
def gasRails (limit : ℕ) : Option SendTxSkipCode :=
  if config.txMaxGasLimit.any fun cap ↦ decide (cap < limit) then some .gas_limit_cap
  else if (match config.txMaxTotalFeeWei, config.txMaxFeePerGasWei with
      | some cap, some fee => decide (cap < limit * fee)
      | _, _ => false) then some .total_fee_cap
  else if feeCapExceeded config args.answers.baseFeeRecheck then some .fee_cap
  else none

/-- A failure is recorded, and the error is thrown. -/
def recordedFailure (clock : FailureClock) (message : String) (submittedAt : Option ℕ) (f : Files) :
    Finished :=
  let r := recordTxFailure config clock message f
  { files := r.1, result := .threw message, submittedAt := submittedAt, failed := true
    trip := if r.2 then some r.1.state.pausedUntilUtc else none }

/-- A transaction that confirmed: the audit first, then the success. -/
def confirmed (hash : String) (receipt : Receipt) (limit : ℕ) (f : Files) : Finished :=
  let clock := args.clock
  match auditPayout args.answers.balanceBefore args.answers.balanceAfter receipt with
  | none =>
      { files := recordTxSuccess config clock.succeeded f
        result := .sent hash receipt limit none, submittedAt := some clock.submitted }
  | some violation =>
      let r := recordTxFailure config clock.sendFailure
        ("payout_bound_violation: " ++ violation.reason) f
      { files := recordTxSuccess config clock.succeeded r.1
        result := .sent hash receipt limit (some violation), submittedAt := some clock.submitted
        failed := true
        trip := if r.2 then some r.1.state.pausedUntilUtc else none }

/-- From `writeContract` on. -/
def submit (limit : ℕ) (f : Files) : Finished :=
  let clock := args.clock
  let failed := fun message ↦
    recordedFailure config clock.sendFailure message (some clock.submitted) f
  match args.answers.broadcast with
  | .error e =>
      if e.feeCapTooLow then
        { files := f, result := .skipped .fee_cap, submittedAt := some clock.submitted }
      else failed e.message
  | .ok hash =>
      match args.answers.receipt with
      | .error e => failed e.message
      | .ok receipt =>
          match receipt.statusOk with
          | some true => confirmed config args hash receipt limit f
          | some false => failed ("tx reverted: " ++ hash)
          | none => failed ("tx status unknown: " ++ hash)

/-- The second check of the pause records. -/
def recheck (limit : ℕ) (f : Files) : Finished :=
  let clock := args.clock
  let f' := readPauseFile config clock.pauseRecheck f
  if pausedAt config clock.pauseRecheck clock.breakerRecheck f then
    { files := f', result := .skipped .paused }
  else submit config args limit f'

/-- From `estimateContractGas` on. -/
def price (f : Files) : Finished :=
  match args.answers.estimate with
  | .error e =>
      if e.feeCapTooLow then { files := f, result := .skipped .fee_cap }
      else recordedFailure config args.clock.estimateFailure e.message none f
  | .ok estimate =>
      let limit := gasLimit config args estimate
      match gasRails config args limit with
      | some code => { files := f, result := .skipped code }
      | none => recheck config args limit f

/-- The guards before the estimate. -/
def guards (f : Files) : Finished :=
  match pendingGuard config args with
  | some result => { files := f, result := result }
  | none =>
      if feeCapExceeded config args.answers.baseFee then
        { files := f, result := .skipped .fee_cap }
      else price config args f

/-- `sendContractTx`. -/
def sendContractTx (f : Files) : Finished :=
  let clock := args.clock
  let f' := readPauseFile config clock.pauseCheck f
  if (getPauseInfo config clock.pauseCheck f.pauseFile).1.paused then
    { files := f', result := .skipped .paused }
  else if config.dryRun then { files := f', result := .skipped .dry_run }
  else if (getCircuitBreakerPauseInfo config clock.breakerCheck f.state).paused then
    { files := f', result := .skipped .paused }
  else guards config args f'

end Call

/-! ## What a call does -/

section Ends

variable {config : KeeperConfig} {args : SendArgs}

/-- The breaker state stops the call at the instant. -/
abbrev breakerPaused (config : KeeperConfig) (now : ℕ) (state : CircuitBreakerState) : Bool :=
  (getCircuitBreakerPauseInfo config now state).paused

/-- The ends of a call that the pause file let pass: `g` is the files without it. -/
inductive EndsOpen (config : KeeperConfig) (args : SendArgs) (g : Files) : Finished → Prop
  | stopped (submitted : Bool) {result : SendTxResult}
      (hresult : result.payoutBoundViolation = none)
      (hsent : ∀ hash receipt limit v, result ≠ .sent hash receipt limit v)
      (hpaused : result = .skipped .paused →
        breakerPaused config args.clock.breakerCheck g.state = true ∨
          breakerPaused config args.clock.breakerRecheck g.state = true)
      (hopen : submitted = true → breakerPaused config args.clock.breakerCheck g.state = false) :
      EndsOpen config args g
        { files := g, result := result
          submittedAt := if submitted then some args.clock.submitted else none }
  | failed {clock : FailureClock} (message : String) (submitted : Bool)
      (hstart : args.clock.breakerCheck ≤ clock.now)
      (hend : clock.pausedFrom ≤ args.clock.returned)
      (hopen : breakerPaused config args.clock.breakerCheck g.state = false) :
      EndsOpen config args g (recordedFailure config clock message
        (if submitted then some args.clock.submitted else none) g)
  | confirmed (hash : String) (receipt : Receipt) (limit : ℕ)
      (hopen : breakerPaused config args.clock.breakerCheck g.state = false) :
      EndsOpen config args g (confirmed config args hash receipt limit g)

theorem confirmed_result (hash : String) (receipt : Receipt) (limit : ℕ) (f : Files) :
    (confirmed config args hash receipt limit f).result = .sent hash receipt limit
      (auditPayout args.answers.balanceBefore args.answers.balanceAfter receipt) := by
  unfold confirmed
  dsimp only
  cases auditPayout args.answers.balanceBefore args.answers.balanceAfter receipt <;> rfl

/-- The order of the readings in a call. -/
theorem CallClock.le_of_ordered (c : CallClock) :
    c.pauseCheck ≤ c.breakerCheck ∧ c.breakerCheck ≤ c.estimateFailure.now ∧
      c.estimateFailure.pausedFrom ≤ c.returned ∧ c.pauseCheck ≤ c.pauseRecheck ∧
      c.breakerCheck ≤ c.breakerRecheck ∧ c.breakerRecheck ≤ c.submitted ∧
      c.breakerCheck ≤ c.submitted ∧ c.breakerCheck ≤ c.sendFailure.now ∧
      c.sendFailure.pausedFrom ≤ c.returned ∧ c.submitted ≤ c.returned ∧
      c.pauseCheck ≤ c.returned := by
  have h := c.ordered
  simp only [List.pairwise_cons, List.mem_cons, forall_eq_or_imp] at h
  obtain ⟨hpause, hbreaker, -, hestimate, -, hrecheck, hsubmitted, -, hfailed, -⟩ := h
  tauto

theorem submit_ends {g : Files} (limit : ℕ)
    (hopen : breakerPaused config args.clock.breakerCheck g.state = false) :
    EndsOpen config args g (submit config args limit g) := by
  obtain ⟨-, -, -, -, -, -, -, hstart, hend, -⟩ := args.clock.le_of_ordered
  have failed (message : String) : EndsOpen config args g (recordedFailure config
      args.clock.sendFailure message (some args.clock.submitted) g) :=
    .failed message true hstart hend hopen
  unfold submit
  rcases args.answers.broadcast with e | hash
  · dsimp only
    split_ifs
    · exact .stopped true rfl (by simp) (by simp) fun _ ↦ hopen
    · exact failed e.message
  · rcases args.answers.receipt with e | receipt
    · exact failed e.message
    · dsimp only
      rcases receipt.statusOk with _ | _ | _
      · exact failed _
      · exact failed _
      · exact .confirmed hash receipt limit hopen

theorem recheck_ends {g : Files} (limit : ℕ) (hfile : g.pauseFile = none)
    (hunpaused : config.paused = false)
    (hopen : breakerPaused config args.clock.breakerCheck g.state = false) :
    EndsOpen config args g (recheck config args limit g) := by
  have hpass : (getPauseInfo config args.clock.pauseRecheck g.pauseFile).1.paused = false := by
    simp [getPauseInfo_paused, hunpaused, hfile]
  have hread : readPauseFile config args.clock.pauseRecheck g = g := by
    rw [readPauseFile, getPauseInfo_of_open hpass, ← hfile]
  unfold recheck
  simp only [hread, pausedAt, hpass, Bool.false_or]
  split_ifs with hpaused
  · exact .stopped false rfl (by simp) (fun _ ↦ .inr hpaused) (by simp)
  · exact submit_ends limit hopen

theorem price_ends {g : Files} (hfile : g.pauseFile = none) (hunpaused : config.paused = false)
    (hopen : breakerPaused config args.clock.breakerCheck g.state = false) :
    EndsOpen config args g (price config args g) := by
  obtain ⟨-, hstart, hend, -⟩ := args.clock.le_of_ordered
  unfold price
  rcases args.answers.estimate with e | estimate
  · dsimp only
    split_ifs
    · exact .stopped false rfl (by simp) (by simp) (by simp)
    · exact .failed e.message false hstart hend hopen
  · dsimp only
    cases hrails : gasRails config args (gasLimit config args estimate) with
    | none => exact recheck_ends _ hfile hunpaused hopen
    | some code =>
        refine .stopped false rfl (by simp) (fun hcode ↦ ?_) (by simp)
        unfold gasRails at hrails
        split_ifs at hrails <;> simp_all

theorem guards_ends {g : Files} (hfile : g.pauseFile = none) (hunpaused : config.paused = false)
    (hopen : breakerPaused config args.clock.breakerCheck g.state = false) :
    EndsOpen config args g (guards config args g) := by
  unfold guards
  cases hguard : pendingGuard config args with
  | none =>
      dsimp only
      split_ifs
      · exact .stopped false rfl (by simp) (by simp) (by simp)
      · exact price_ends hfile hunpaused hopen
  | some result =>
      unfold pendingGuard at hguard
      split_ifs at hguard
      rcases hcounts : args.answers.nonceCounts with e | ⟨latest, pending⟩
      · rw [hcounts] at hguard
        obtain rfl := Option.some.inj hguard
        exact .stopped false rfl (by simp) (by simp) (by simp)
      · simp only [hcounts] at hguard
        split_ifs at hguard
        obtain rfl := Option.some.inj hguard
        exact .stopped false rfl (by simp) (by simp) (by simp)

/-- The pause file stops the call and stays, or the call goes on without it. -/
theorem sendContractTx_of_paused {f : Files}
    (h : (getPauseInfo config args.clock.pauseCheck f.pauseFile).1.paused = true) :
    sendContractTx config args f = { files := f, result := .skipped .paused } := by
  simp [sendContractTx, readPauseFile, h, getPauseInfo_of_paused h]

theorem sendContractTx_of_open {f : Files}
    (h : (getPauseInfo config args.clock.pauseCheck f.pauseFile).1.paused = false) :
    EndsOpen config args { f with pauseFile := none } (sendContractTx config args f) := by
  have hunpaused : config.paused = false := by
    rw [getPauseInfo_paused, Bool.or_eq_false_iff] at h
    exact h.1
  simp only [sendContractTx, readPauseFile, h, getPauseInfo_of_open h]
  simp only [Bool.false_eq_true, if_false]
  split_ifs with hdry hpaused
  · exact .stopped false rfl (by simp) (by simp) (by simp)
  · exact .stopped false rfl (by simp) (fun _ ↦ .inl hpaused) (by simp)
  · exact guards_ends rfl hunpaused (Bool.not_eq_true _ ▸ hpaused)

end Ends

end ClaimRush.Keeper
