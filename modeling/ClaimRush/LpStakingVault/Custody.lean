import ClaimRush.LpStakingVault.Unbonding

/-!
# Custody of LP tokens

The vault together with its LP token balance.  The LP token is a standard ERC20:
a transfer moves the amount or reverts, and it reverts when the balance is too
low.  What the vault owes, staked or under unbonding, is always held.
-/

open Function

namespace ClaimRush.LpStakingVault

open Constants VeClaimNFT

structure Custody where
  vault : VaultState
  /-- LP tokens held by the vault. -/
  lpBalance : ℕ

inductive CustodyOp
  | vault (op : Op)
  /-- LP tokens sent to the vault by a plain transfer. -/
  | transferLp (amount : ℕ)

/-- The amount of the transfer that ends `withdrawMatured`. -/
def withdrawnAmount (call : Call) (s : VaultState) : ℕ :=
  let arr := s.unbonds call.sender
  match withdrawLoop call.timestamp call.sender arr.length arr 0 0 s.events with
  | .ok (_, totalOut, _) => totalOut
  | .error _ => 0

/-- Execute one call with its LP token transfer. -/
def Custody.exec (c : Call × CustodyOp) (s : Custody) : Except Error Custody :=
  match c.2 with
  | .transferLp amount => do
      let lpBalance ← uint256 (s.lpBalance + amount)
      return { s with lpBalance := lpBalance }
  | .vault (.stake amount transferred) => do
      let vault ← stake c.1 s.vault amount transferred
      let lpBalance ← uint256 (s.lpBalance + amount)
      return { vault := vault, lpBalance := lpBalance }
  | .vault (.withdrawMatured transferred) => do
      let totalOut := withdrawnAmount c.1 s.vault
      let vault ← withdrawMatured c.1 s.vault (transferred && totalOut ≤ s.lpBalance)
      return { vault := vault, lpBalance := s.lpBalance - totalOut }
  | .vault op => do
      let vault ← LpStakingVault.exec c.1 s.vault op
      return { s with vault := vault }

/-- The vault from its deployment on; its address may already hold LP tokens. -/
def custodySystem : TransitionSystem (Timed Custody) :=
  driven
    (fun s ↦ s.lpBalance < uint256Bound ∧ ∃ self owner claim ve furnace balance,
      s.vault = initial self owner claim ve furnace balance)
    (fun c : Call × CustodyOp ↦ c.1.timestamp) Custody.exec

/-- LP tokens of a user that are under unbonding. -/
def pending (s : VaultState) (user : Address) : ℕ := amounts (s.unbonds user)

/-- An entry as the events report it. -/
def Unbond.reported (u : Unbond) : ℕ × ℕ := (u.id, u.amount)

/-- What the vault owes is held, and every entry ever started is either withdrawn
or pending, once. -/
structure Custodial (s : Custody) : Prop where
  finite_staked : FiniteEntries s.vault.stakedBalance
  staked : total s.vault.stakedBalance = s.vault.totalStaked
  finite_pending : FiniteEntries (pending s.vault)
  held : s.vault.totalStaked + total (pending s.vault) ≤ s.lpBalance
  bounded : s.lpBalance < uint256Bound
  atMost : ∀ user, (s.vault.unbonds user).length ≤ MAX_UNBONDS_PER_USER
  books : ∀ user, ((started s.vault user).map Unbond.reported).Perm
    (withdrawn s.vault user ++ (s.vault.unbonds user).map Unbond.reported)
  nodup : ∀ user, ((started s.vault user).map Unbond.id).Nodup
  fresh : ∀ user, ∀ u ∈ started s.vault user, u.id < s.vault.nextUnbondId user
  recorded : ∀ user, ∀ u ∈ s.vault.unbonds user, u ∈ started s.vault user
  positive : ∀ user, ∀ u ∈ s.vault.unbonds user, u.amount ≠ 0

variable {call : Call} {s : Custody}

namespace Custodial

theorem congr {vault : VaultState} (h : Custodial s) (hsame : SameCustody s.vault vault) :
    Custodial { s with vault := vault } := by
  have hpending : pending vault = pending s.vault := by
    funext user
    rw [pending, hsame.unbonds, pending]
  refine ⟨hsame.stakedBalance ▸ h.finite_staked, ?_, hpending ▸ h.finite_pending, ?_, h.bounded,
    hsame.unbonds ▸ h.atMost, ?_, ?_, ?_, ?_, hsame.unbonds ▸ h.positive⟩
  · rw [hsame.stakedBalance, hsame.totalStaked, h.staked]
  · rw [hsame.totalStaked, hpending]
    exact h.held
  · rw [hsame.started, hsame.withdrawn, hsame.unbonds]
    exact h.books
  · rw [hsame.started]
    exact h.nodup
  · rw [hsame.started, hsame.nextUnbondId]
    exact h.fresh
  · rw [hsame.unbonds, hsame.started]
    exact h.recorded

theorem pending_le (h : Custodial s) (user : Address) : pending s.vault user ≤ s.lpBalance :=
  (le_total h.finite_pending user).trans ((Nat.le_add_left _ _).trans h.held)

end Custodial

/-! ## Stakes -/

/-- A stake changes the stake of the caller, and nothing else of the custody. -/
theorem stake_custody (call : Call) (s : VaultState) (amount : ℕ) (transferred : Bool) :
    Returns (fun s' ↦ SameCustody
      { s with
        totalStaked := s.totalStaked + amount
        stakedBalance := update s.stakedBalance call.sender (s.stakedBalance call.sender + amount) }
      s') (stake call s amount transferred) := by
  unfold stake
  refine Returns.guard fun _ ↦ Returns.guard fun _ ↦ ?_
  refine Outcome.bind (checkpoint_custody s call.sender) fun n hn ↦ Returns.guard fun _ ↦ ?_
  refine Outcome.uint256_bind trivial fun _ ↦ Outcome.uint256_bind trivial fun _ ↦ ?_
  have hstaked : SameCustody
      { s with
        totalStaked := s.totalStaked + amount
        stakedBalance := update s.stakedBalance call.sender (s.stakedBalance call.sender + amount) }
      { n with
        totalStaked := n.totalStaked + amount
        stakedBalance :=
          update n.stakedBalance call.sender (n.stakedBalance call.sender + amount) } := by
    refine ⟨?_, ?_, hn.unbonds, hn.nextUnbondId, hn.started, hn.withdrawn⟩
    · exact congrArg (· + amount) hn.totalStaked
    · change update n.stakedBalance _ _ = update s.stakedBalance _ _
      rw [hn.stakedBalance]
  dsimp only
  split_ifs
  · refine Outcome.bind (indexRewardsWithCarry_custody _ _) fun n' hn' ↦ ?_
    refine SameCustody.emit ?_ (fun _ ↦ rfl) fun _ ↦ rfl
    exact hstaked.trans (hn'.after ⟨rfl, rfl, rfl, rfl, rfl, rfl⟩)
  · exact hstaked.emit (fun _ ↦ rfl) fun _ ↦ rfl

theorem Custodial.stake (h : Custodial s) (amount : ℕ) (transferred : Bool) :
    Returns Custodial (Custody.exec (call, .vault (.stake amount transferred)) s) := by
  refine Outcome.bind (stake_custody call s.vault amount transferred) fun vault hvault ↦ ?_
  refine Outcome.uint256_bind trivial fun hbound ↦ ?_
  have hheld := h.held
  have htotal := total_update h.finite_staked call.sender
    (s.vault.stakedBalance call.sender + amount)
  have hstaked : Custodial
      { vault := { s.vault with
          totalStaked := s.vault.totalStaked + amount
          stakedBalance :=
            update s.vault.stakedBalance call.sender (s.vault.stakedBalance call.sender + amount) }
        lpBalance := s.lpBalance + amount } := by
    refine ⟨h.finite_staked.update _ _, ?_, h.finite_pending, ?_, hbound, h.atMost, h.books,
      h.nodup, h.fresh, h.recorded, h.positive⟩
    · have := h.staked
      dsimp only
      omega
    · change s.vault.totalStaked + amount + total (pending s.vault) ≤ _
      dsimp only
      omega
  exact hstaked.congr hvault

/-! ## Unbonding -/

theorem unbondAmount_ne_zero {staked amount : ℕ} (hle : amount ≤ staked) (h : amount ≠ 0) :
    unbondAmount staked amount ≠ 0 := by
  unfold unbondAmount
  split_ifs <;> omega

/-- `user` starts the entry `u`. -/
def startEntry (n : VaultState) (user : Address) (u : Unbond) : VaultState :=
  { n with
    stakedBalance := update n.stakedBalance user (n.stakedBalance user - u.amount)
    totalStaked := n.totalStaked - u.amount
    nextUnbondId := update n.nextUnbondId user (u.id + 1)
    unbonds := update n.unbonds user (n.unbonds user ++ [u]) }.emit
    (.LpUnbondStarted user u.id u.amount u.unlockTime)

theorem pending_startEntry (n : VaultState) (user : Address) (u : Unbond) :
    pending (startEntry n user u) = update (pending n) user (pending n user + u.amount) := by
  funext v
  by_cases hv : v = user
  · subst hv
    simp [pending, startEntry, VaultState.emit, amounts]
  · simp [pending, startEntry, VaultState.emit, hv]

theorem started_startEntry (n : VaultState) (user : Address) (u : Unbond) (v : Address) :
    started (startEntry n user u) v = started n v ++ if v = user then [u] else [] := by
  by_cases hv : v = user
  · subst hv
    simp [started, startEntry, VaultState.emit, startedBy]
  · simp [started, startEntry, VaultState.emit, startedBy, hv, Ne.symm hv]

theorem withdrawn_startEntry (n : VaultState) (user : Address) (u : Unbond) (v : Address) :
    withdrawn (startEntry n user u) v = withdrawn n v := by
  simp [withdrawn, startEntry, VaultState.emit, withdrawnBy]

theorem unbonds_startEntry (n : VaultState) (user : Address) (u : Unbond) (v : Address) :
    (startEntry n user u).unbonds v = n.unbonds v ++ if v = user then [u] else [] := by
  by_cases hv : v = user
  · subst hv
    simp [startEntry, VaultState.emit]
  · simp [startEntry, VaultState.emit, hv]

/-- An unbonding moves a positive part of the caller's stake to one new entry. -/
structure Unbonded (call : Call) (s : VaultState) (amount : ℕ) (n : VaultState) (u : Unbond) :
    Prop where
  same : SameCustody s n
  room : (s.unbonds call.sender).length < MAX_UNBONDS_PER_USER
  amount_eq : u.amount = unbondAmount (s.stakedBalance call.sender) amount
  positive : u.amount ≠ 0
  le_staked : u.amount ≤ n.stakedBalance call.sender
  le_total : u.amount ≤ n.totalStaked
  id_eq : u.id = n.nextUnbondId call.sender
  unlockTime_eq : u.unlockTime = call.timestamp + UNBONDING_PERIOD

theorem beginUnbond_custody (call : Call) (s : VaultState) (amount : ℕ) :
    Returns (fun s' ↦ ∃ n u, Unbonded call s amount n u ∧ s' = startEntry n call.sender u)
      (beginUnbond call s amount) := by
  unfold beginUnbond
  dsimp only
  refine Returns.guard fun hzero ↦ Returns.guard fun _ ↦ Returns.guard fun hstaked ↦ ?_
  refine Returns.guard fun hroom ↦ Outcome.bind (checkpoint_custody s call.sender) fun n hn ↦ ?_
  refine Outcome.usub_bind trivial fun hle ↦ Outcome.usub_bind trivial fun hle' ↦ ?_
  refine Outcome.uint256_bind trivial fun _ ↦ Outcome.uint256_bind trivial fun _ ↦ ?_
  have hpositive := unbondAmount_ne_zero (not_lt.mp hstaked) hzero
  exact ⟨n, ⟨n.nextUnbondId call.sender, unbondAmount (s.stakedBalance call.sender) amount,
    call.timestamp + UNBONDING_PERIOD⟩,
    ⟨hn, not_le.mp hroom, rfl, hpositive, hle, hle', rfl, rfl⟩, rfl⟩

theorem Custodial.startEntry {n : VaultState} {lpBalance : ℕ} (h : Custodial ⟨n, lpBalance⟩)
    {user : Address} {u : Unbond} (hroom : (n.unbonds user).length < MAX_UNBONDS_PER_USER)
    (hpositive : u.amount ≠ 0) (hle : u.amount ≤ n.stakedBalance user)
    (hle' : u.amount ≤ n.totalStaked) (hid : u.id = n.nextUnbondId user) :
    Custodial ⟨startEntry n user u, lpBalance⟩ := by
  have hheld : n.totalStaked + total (pending n) ≤ lpBalance := h.held
  have hstaked : total n.stakedBalance = n.totalStaked := h.staked
  have htotal := total_update h.finite_staked user (n.stakedBalance user - u.amount)
  have hpending := total_update h.finite_pending user (pending n user + u.amount)
  refine ⟨h.finite_staked.update _ _, ?_, ?_, ?_, h.bounded, fun v ↦ ?_, fun v ↦ ?_, fun v ↦ ?_,
    fun v w hw ↦ ?_, fun v w hw ↦ ?_, fun v w hw ↦ ?_⟩
  · simp only [LpStakingVault.startEntry, VaultState.emit]
    dsimp only at htotal
    omega
  · rw [pending_startEntry]
    exact h.finite_pending.update _ _
  · rw [pending_startEntry]
    simp only [LpStakingVault.startEntry, VaultState.emit]
    dsimp only at hpending
    omega
  · have hold : (n.unbonds v).length ≤ MAX_UNBONDS_PER_USER := h.atMost v
    rw [unbonds_startEntry]
    split_ifs with hv
    · subst hv
      simpa using hroom
    · simpa using hold
  · rw [started_startEntry, withdrawn_startEntry, unbonds_startEntry, List.map_append,
      List.map_append, ← List.append_assoc]
    exact (h.books v).append_right _
  · rw [started_startEntry]
    split_ifs with hv
    · subst hv
      rw [List.map_append, List.nodup_append]
      refine ⟨h.nodup v, List.nodup_singleton _, ?_⟩
      rintro i hi j hj rfl
      obtain ⟨w, hw, rfl⟩ := List.mem_map.mp hi
      have hlt : w.id < n.nextUnbondId v := h.fresh v w hw
      have heq : w.id = u.id := by simpa using hj
      omega
    · rw [List.append_nil]
      exact h.nodup v
  · rw [started_startEntry] at hw
    have hold (hw : w ∈ started n v) : w.id < n.nextUnbondId v := h.fresh v w hw
    simp only [LpStakingVault.startEntry, VaultState.emit]
    by_cases hv : v = user
    · subst hv
      rw [update_self]
      rw [if_pos rfl] at hw
      rcases List.mem_append.mp hw with hw | hw
      · exact hid ▸ Nat.lt_succ_of_lt (hold hw)
      · rw [List.mem_singleton.mp hw]
        exact Nat.lt_succ_self _
    · rw [if_neg hv, List.append_nil] at hw
      rw [update_of_ne hv]
      exact hold hw
  · rw [unbonds_startEntry] at hw
    rw [started_startEntry]
    exact List.mem_append.mpr ((List.mem_append.mp hw).imp_left (h.recorded v w))
  · rw [unbonds_startEntry] at hw
    rcases List.mem_append.mp hw with hw | hw
    · exact h.positive v w hw
    · split_ifs at hw with hv
      · exact List.mem_singleton.mp hw ▸ hpositive
      · cases hw

theorem Custodial.beginUnbond (h : Custodial s) (amount : ℕ) :
    Returns Custodial (Custody.exec (call, .vault (.beginUnbond amount)) s) := by
  refine Outcome.bind (beginUnbond_custody call s.vault amount) fun vault hvault ↦ ?_
  obtain ⟨n, u, hu, rfl⟩ := hvault
  have hroom := hu.room
  rw [← hu.same.unbonds] at hroom
  exact (h.congr hu.same).startEntry hroom hu.positive hu.le_staked hu.le_total hu.id_eq

/-! ## Withdrawals -/

theorem startedBy_withdrawals (user v : Address) (arr : List Unbond) :
    (withdrawals user arr).filterMap (startedBy v) = [] := by
  simp [withdrawals, startedBy]

theorem withdrawnBy_withdrawals (user v : Address) {arr : List Unbond}
    (h : ∀ u ∈ arr, u.amount ≠ 0) :
    (withdrawals user arr).filterMap (withdrawnBy v) =
      if v = user then arr.map Unbond.reported else [] := by
  have hall : arr.filter (fun u ↦ u.amount ≠ 0) = arr :=
    List.filter_eq_self.mpr fun u hu ↦ by simpa using h u hu
  rw [withdrawals, hall]
  by_cases hv : v = user
  · subst hv
    simp [List.filterMap_map, Function.comp_def, withdrawnBy, Unbond.reported,
      List.filterMap_eq_map']
  · simp [List.filterMap_map, Function.comp_def, withdrawnBy, hv, Ne.symm hv]

/-- What a withdrawal of the caller does: the matured entries are paid and gone,
the others stay. -/
structure Withdrawal (call : Call) (s s' : Custody) : Prop where
  custodial : Custodial s'
  left : (s'.vault.unbonds call.sender).Perm
    (unmatured call.timestamp (s.vault.unbonds call.sender))
  others : ∀ v, v ≠ call.sender → s'.vault.unbonds v = s.vault.unbonds v
  paid : s'.lpBalance + amounts (matured call.timestamp (s.vault.unbonds call.sender)) = s.lpBalance
  reported : ∀ v, (withdrawn s'.vault v).Perm (withdrawn s.vault v ++
    if v = call.sender then
      (matured call.timestamp (s.vault.unbonds call.sender)).map Unbond.reported
    else [])

/-- The vault after the loop has run. -/
def afterLoop (s : VaultState) (user : Address) (rest : List Unbond) (evs : List Event) :
    VaultState :=
  { s with unbonds := update s.unbonds user rest, events := s.events ++ evs }

theorem Custodial.withdraw (h : Custodial s) (call : Call) {taken rest : List Unbond}
    {evs : List Event} (htaken : taken = matured call.timestamp (s.vault.unbonds call.sender))
    (hrest : rest.Perm (unmatured call.timestamp (s.vault.unbonds call.sender)))
    (hevs : evs.Perm (withdrawals call.sender taken)) :
    Withdrawal call s
      { vault := afterLoop s.vault call.sender rest evs
        lpBalance := s.lpBalance - amounts taken } := by
  set user := call.sender
  set vault' := afterLoop s.vault user rest evs with hvault
  have hsplit : (taken ++ rest).Perm (s.vault.unbonds user) :=
    htaken ▸ (List.Perm.append_left _ hrest).trans (matured_append_unmatured _ _)
  have hmem {u : Unbond} (hu : u ∈ taken ∨ u ∈ rest) : u ∈ s.vault.unbonds user :=
    hsplit.subset (List.mem_append.mpr hu)
  have hamounts : amounts taken + amounts rest = pending s.vault user := by
    rw [← amounts_append]
    exact amounts_perm hsplit
  have hpaid := h.pending_le user
  have hunbonds (v : Address) :
      vault'.unbonds v = if v = user then rest else s.vault.unbonds v := by
    by_cases hv : v = user <;> simp [hvault, afterLoop, hv]
  have hpending : pending vault' = update (pending s.vault) user (amounts rest) := by
    funext v
    by_cases hv : v = user <;> simp [pending, hvault, afterLoop, hv]
  have hstarted : started vault' = started s.vault := by
    funext v
    have hnone := (hevs.filterMap (startedBy v)).trans (.of_eq (startedBy_withdrawals user v taken))
    rw [started, hvault, afterLoop, List.filterMap_append, hnone.eq_nil, List.append_nil, started]
  have hwithdrawn (v : Address) : (withdrawn vault' v).Perm
      (withdrawn s.vault v ++ if v = user then taken.map Unbond.reported else []) := by
    rw [withdrawn, hvault, afterLoop, List.filterMap_append]
    refine List.Perm.append_left _ ((hevs.filterMap (withdrawnBy v)).trans (.of_eq ?_))
    exact withdrawnBy_withdrawals user v fun u hu ↦ h.positive user u (hmem (.inl hu))
  have htotal := total_update h.finite_pending user (amounts rest)
  have hheld := h.held
  refine ⟨⟨h.finite_staked, h.staked, ?_, ?_, (Nat.sub_le _ _).trans_lt h.bounded, fun v ↦ ?_,
    fun v ↦ ?_, ?_, ?_, fun v u hu ↦ ?_, fun v u hu ↦ ?_⟩, ?_, fun v hv ↦ ?_, ?_, ?_⟩
  · exact hpending ▸ h.finite_pending.update _ _
  · rw [hpending]
    change s.vault.totalStaked + _ ≤ s.lpBalance - amounts taken
    omega
  · rw [hunbonds]
    split_ifs with hv
    · have hlength := hsplit.length_eq
      have hold := h.atMost user
      rw [List.length_append] at hlength
      omega
    · exact h.atMost v
  · rw [hstarted]
    refine (h.books v).trans ?_
    rw [hunbonds]
    by_cases hv : v = user
    · have hreported := hwithdrawn v
      rw [if_pos hv] at hreported ⊢
      subst hv
      refine .trans ?_ (hreported.symm.append_right _)
      rw [List.append_assoc, ← List.map_append]
      exact (hsplit.symm.map _).append_left _
    · have hreported := hwithdrawn v
      rw [if_neg hv, List.append_nil] at hreported
      rw [if_neg hv]
      exact hreported.symm.append_right _
  · rw [hstarted]
    exact h.nodup
  · rw [hstarted]
    exact h.fresh
  · rw [hstarted]
    rw [hunbonds] at hu
    split_ifs at hu with hv
    · exact hv ▸ h.recorded user u (hmem (.inr hu))
    · exact h.recorded v u hu
  · rw [hunbonds] at hu
    split_ifs at hu with hv
    · exact h.positive user u (hmem (.inr hu))
    · exact h.positive v u hu
  · rw [hunbonds, if_pos rfl]
    exact hrest
  · rw [hunbonds, if_neg hv]
  · rw [← htaken]
    dsimp only
    omega
  · rw [← htaken]
    exact hwithdrawn

/-- A withdrawal returns whenever the LP transfer of a held amount goes through. -/
theorem Custodial.withdrawMatured (h : Custodial s) (call : Call) (transferred : Bool) :
    Returns (Withdrawal call s) (Custody.exec (call, .vault (.withdrawMatured transferred)) s) ∧
      ∃ s', Custody.exec (call, .vault (.withdrawMatured true)) s = .ok s' := by
  have hle := amounts_matured_le call.timestamp (s.vault.unbonds call.sender)
  have hheld : amounts (matured call.timestamp (s.vault.unbonds call.sender)) ≤ s.lpBalance :=
    (Nat.le_of_add_right_le hle.le).trans (h.pending_le call.sender)
  obtain ⟨rest, evs, hloop, hrest, hevs⟩ := withdrawLoop_spec call.timestamp call.sender
    (s.vault.unbonds call.sender) s.vault.events (hheld.trans_lt h.bounded)
  have hout : withdrawnAmount call s.vault =
      amounts (matured call.timestamp (s.vault.unbonds call.sender)) := by
    simp only [withdrawnAmount, hloop _ le_rfl]
  have hdone := h.withdraw call rfl hrest hevs
  have hrun (transferred : Bool) :
      LpStakingVault.withdrawMatured call s.vault transferred =
        (if amounts (matured call.timestamp (s.vault.unbonds call.sender)) = 0 then
          .ok (afterLoop s.vault call.sender rest evs)
        else do
          revertIf (!transferred) .ExternalCallFailed
          return afterLoop s.vault call.sender rest evs) := by
    unfold LpStakingVault.withdrawMatured
    dsimp only
    rw [hloop _ le_rfl]
    rfl
  constructor
  · have hvault (t : Bool) : Returns (· = afterLoop s.vault call.sender rest evs)
        (LpStakingVault.withdrawMatured call s.vault t) := by
      rw [hrun]
      exact Returns.ite (fun _ ↦ rfl) fun _ ↦ Returns.guard fun _ ↦ rfl
    refine Outcome.bind (hvault _) fun vault hv ↦ ?_
    rw [hv, hout]
    exact hdone
  · refine ⟨_, bind_eq_ok_iff.mpr ⟨afterLoop s.vault call.sender rest evs, ?_, rfl⟩⟩
    rw [hrun, hout]
    split_ifs
    · rfl
    · simp [hheld, revertIf, bind, Except.bind, pure, Except.pure]

/-! ## Runs -/

theorem Custodial.exec (h : Custodial s) (c : Call × CustodyOp) :
    Returns Custodial (Custody.exec c s) := by
  obtain ⟨call, op⟩ := c
  cases op with
  | transferLp amount =>
      refine Outcome.uint256_bind trivial fun hbound ↦ ?_
      exact { h with bounded := hbound, held := h.held.trans (Nat.le_add_right _ _) }
  | vault op =>
      have hsame {op : Op}
          (hframe : Returns (SameCustody s.vault) (LpStakingVault.exec call s.vault op)) :
          Returns Custodial (do
            let vault ← LpStakingVault.exec call s.vault op
            return { s with vault := vault }) :=
        Outcome.bind hframe fun _ ↦ h.congr
      cases op with
      | stake amount transferred => exact h.stake amount transferred
      | beginUnbond amount => exact h.beginUnbond amount
      | withdrawMatured transferred =>
          exact (h.withdrawMatured call transferred).1.weaken fun _ hw ↦ hw.custodial
      | _ => exact hsame (exec_custody call s.vault (by simp) (by simp) (by simp))

theorem initial_custodial {self owner claim ve furnace : Address} {balance lpBalance : ℕ}
    (h : lpBalance < uint256Bound) :
    Custodial ⟨initial self owner claim ve furnace balance, lpBalance⟩ where
  finite_staked := finiteEntries_zero
  staked := total_zero
  finite_pending := finiteEntries_zero
  held := by
    change 0 + total (fun _ ↦ 0) ≤ lpBalance
    rw [total_zero]
    exact Nat.zero_le _
  bounded := h
  atMost _ := Nat.zero_le _
  books _ := .refl _
  nodup _ := List.nodup_nil
  fresh _ _ hu := nomatch hu
  recorded _ _ hu := nomatch hu
  positive _ _ hu := nomatch hu

theorem reachable_custodial {c : Timed Custody} (h : custodySystem.Reachable c) :
    Custodial c.state := by
  refine driven_invariant ?_ (fun call s hs ↦ hs.exec call) h
  rintro ⟨vault, lpBalance⟩ ⟨hbound, self, owner, claim, ve, furnace, balance, rfl⟩
  exact initial_custodial hbound

/-- An operation that is no withdrawal pays no LP tokens and reports none. -/
theorem exec_unpaid {c : Call × CustodyOp}
    (hc : ∀ transferred, c.2 ≠ .vault (.withdrawMatured transferred)) :
    Returns (fun s' ↦ withdrawn s'.vault = withdrawn s.vault ∧ s.lpBalance ≤ s'.lpBalance)
      (Custody.exec c s) := by
  obtain ⟨call, op⟩ := c
  cases op with
  | transferLp amount => exact Outcome.uint256_bind trivial fun _ ↦ ⟨rfl, Nat.le_add_right _ _⟩
  | vault op =>
      have hsame {op : Op}
          (hframe : Returns (SameCustody s.vault) (LpStakingVault.exec call s.vault op)) :
          Returns (fun s' ↦ withdrawn s'.vault = withdrawn s.vault ∧ s.lpBalance ≤ s'.lpBalance) (do
            let vault ← LpStakingVault.exec call s.vault op
            return { s with vault := vault }) :=
        Outcome.bind hframe fun _ hv ↦ ⟨hv.withdrawn, le_rfl⟩
      cases op with
      | stake amount transferred =>
          refine Outcome.bind (stake_custody call s.vault amount transferred) fun vault hv ↦ ?_
          exact Outcome.uint256_bind trivial fun _ ↦ ⟨hv.withdrawn, Nat.le_add_right _ _⟩
      | beginUnbond amount =>
          refine Outcome.bind (beginUnbond_custody call s.vault amount) ?_
          rintro vault ⟨n, u, hu, rfl⟩
          exact ⟨(funext (withdrawn_startEntry n _ u)).trans hu.same.withdrawn, le_rfl⟩
      | withdrawMatured transferred => exact absurd rfl (hc transferred)
      | _ => exact hsame (exec_custody call s.vault (by simp) (by simp) (by simp))

/-- In every run the vault holds what is staked and under unbonding, each entry
ever started is withdrawn or pending exactly once, and no user has more than the
maximal number of entries.  A withdrawal always returns when its LP transfer does,
pays the matured entries of the caller and leaves the others; nothing else pays.
The loop does so on every array, whatever its order. -/
theorem lp_custody (c : Timed Custody) (h : custodySystem.Reachable c) :
    Custodial c.state ∧
      (∀ call, ∃ s', Custody.exec (call, .vault (.withdrawMatured true)) c.state = .ok s') ∧
      (∀ call transferred s',
        Custody.exec (call, .vault (.withdrawMatured transferred)) c.state = .ok s' →
        Withdrawal call c.state s') ∧
      (∀ c' s', (∀ transferred, c'.2 ≠ .vault (.withdrawMatured transferred)) →
        Custody.exec c' c.state = .ok s' →
        withdrawn s'.vault = withdrawn c.state.vault ∧ c.state.lpBalance ≤ s'.lpBalance) ∧
      (∀ call amount s', Custody.exec (call, .vault (.beginUnbond amount)) c.state = .ok s' →
        ∃ u : Unbond, u.amount = unbondAmount (c.state.vault.stakedBalance call.sender) amount ∧
          u.unlockTime = call.timestamp + UNBONDING_PERIOD ∧
          s'.vault.unbonds call.sender = c.state.vault.unbonds call.sender ++ [u]) ∧
      ∀ nowTs user arr events, amounts (matured nowTs arr) < uint256Bound → ∃ rest evs,
        (∀ fuel, arr.length ≤ fuel → withdrawLoop nowTs user fuel arr 0 0 events =
          .ok (rest, amounts (matured nowTs arr), events ++ evs)) ∧
        rest.Perm (unmatured nowTs arr) ∧ evs.Perm (withdrawals user (matured nowTs arr)) := by
  have hcustodial := reachable_custodial h
  refine ⟨hcustodial, fun call ↦ (hcustodial.withdrawMatured call true).2, ?_, ?_, ?_,
    withdrawLoop_spec⟩
  · intro call transferred s' hexec
    exact (hcustodial.withdrawMatured call transferred).1.of_ok hexec
  · intro c' s' hc' hexec
    exact (exec_unpaid hc').of_ok hexec
  · intro call amount s' hexec
    obtain ⟨vault, hvault, hs'⟩ := bind_eq_ok_iff.mp hexec
    obtain rfl := Except.ok.inj hs'
    obtain ⟨n, u, hu, rfl⟩ := (beginUnbond_custody call c.state.vault amount).of_ok hvault
    refine ⟨u, hu.amount_eq, hu.unlockTime_eq, ?_⟩
    rw [unbonds_startEntry, if_pos rfl, hu.same.unbonds]

/-- Two unbondings, of which the first has matured when both are withdrawn. -/
def unbondCalls : List (Call × CustodyOp) :=
  [(plainCall 0 7, .vault (.stake (10 ^ 18) true)),
    (plainCall 100 7, .vault (.beginUnbond (10 ^ 17))),
    (plainCall 400000 7, .vault (.beginUnbond (10 ^ 17))),
    (plainCall 700000 7, .vault (.withdrawMatured true))]

theorem lp_custody_unbond : ∃ c, custodySystem.Reachable c ∧
    withdrawn c.state.vault 7 = [(0, 10 ^ 17)] ∧ c.state.lpBalance = 9 * 10 ^ 17 ∧
    Custodial c.state := by
  have hrun : ∃ c, custodySystem.Reachable c ∧
      decide (withdrawn c.state.vault 7 = [(0, 10 ^ 17)] ∧ c.state.lpBalance = 9 * 10 ^ 17) =
        true := by
    refine driven_witness (Custody.mk (initial 1 9 2 3 4 0) 0) unbondCalls (fun s ↦ decide
      (withdrawn s.vault 7 = [(0, 10 ^ 17)] ∧ s.lpBalance = 9 * 10 ^ 17)) ?_ ?_ ?_
    · exact ⟨uint256Bound_pos, 1, 9, 2, 3, 4, 0, rfl⟩
    · decide
    · decide +kernel
  obtain ⟨c, hreachable, hstate⟩ := hrun
  obtain ⟨hwithdrawn, hbalance⟩ := of_decide_eq_true hstate
  exact ⟨c, hreachable, hwithdrawn, hbalance, (lp_custody c hreachable).1⟩

end ClaimRush.LpStakingVault
