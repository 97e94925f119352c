import ClaimRush.Errors

/-!
# The CLAIM token

Balances, allowances and supply of a standard ERC20, with the two recipients
that `ClaimToken._update` refuses: the token itself and its wiring probe.
-/

open Function

namespace ClaimRush

/-- Account addresses; `0` is the zero address. -/
abbrev Address := ℕ

structure ClaimToken where
  self : Address
  wiringProbe : Address
  mineCore : Address
  balanceOf : Address → ℕ
  allowance : Address → Address → ℕ
  totalSupply : ℕ

namespace ClaimToken

variable (c : ClaimToken)

def isRestrictedRecipient (dst : Address) : Bool :=
  dst == c.self || dst == c.wiringProbe

/-- `_update` between two non-zero accounts. -/
def move (src dst : Address) (value : ℕ) : Except Error ClaimToken := do
  revertIf (c.isRestrictedRecipient dst) .TransfersRestricted
  revertIf (c.balanceOf src < value) .ERC20InsufficientBalance
  let debited := update c.balanceOf src (c.balanceOf src - value)
  return { c with balanceOf := update debited dst (debited dst + value) }

/-- `transfer`, called by `src`. -/
def transfer (src dst : Address) (value : ℕ) : Except Error ClaimToken := do
  revertIf (src = 0) .ERC20InvalidSender
  revertIf (dst = 0) .ERC20InvalidReceiver
  c.move src dst value

/-- `approve`, called by `owner`. -/
def approve (owner spender : Address) (value : ℕ) : ClaimToken :=
  { c with allowance := update c.allowance owner (update (c.allowance owner) spender value) }

/-- `_spendAllowance`; the maximal allowance is never reduced. -/
def spendAllowance (owner spender : Address) (value : ℕ) : Except Error ClaimToken :=
  let current := c.allowance owner spender
  if uint256Bound ≤ current + 1 then .ok c
  else if current < value then .error .ERC20InsufficientAllowance
  else .ok (c.approve owner spender (current - value))

/-- `transferFrom`, called by `spender`. -/
def transferFrom (spender src dst : Address) (value : ℕ) : Except Error ClaimToken := do
  let c ← c.spendAllowance src spender value
  c.transfer src dst value

/-- `mint`, called by `caller`. -/
def mint (caller dst : Address) (value : ℕ) : Except Error ClaimToken := do
  revertIf (caller ≠ c.mineCore) .OnlyMineCore
  revertIf (dst = 0) .ZeroAddress
  revertIf (c.isRestrictedRecipient dst) .TransfersRestricted
  revertIf (value = 0) .AmountZero
  let supply ← uint256 (c.totalSupply + value)
  return { c with
    totalSupply := supply
    balanceOf := update c.balanceOf dst (c.balanceOf dst + value) }

/-- `burn`, called by the holder. -/
def burn (caller : Address) (value : ℕ) : Except Error ClaimToken := do
  revertIf (value = 0) .AmountZero
  revertIf (caller = 0) .ERC20InvalidSender
  revertIf (c.balanceOf caller < value) .ERC20InsufficientBalance
  return { c with
    totalSupply := c.totalSupply - value
    balanceOf := update c.balanceOf caller (c.balanceOf caller - value) }

/-- The calls that move CLAIM, and the wiring of the minter. -/
inductive Op
  | transfer (dst : Address) (value : ℕ)
  | approve (spender : Address) (value : ℕ)
  | transferFrom (src dst : Address) (value : ℕ)
  | mint (dst : Address) (value : ℕ)
  | burn (value : ℕ)
  | setMineCore (mineCore : Address)
  deriving DecidableEq, Repr

/-- Execute one call on the token. -/
def exec (caller : Address) : Op → Except Error ClaimToken
  | .transfer dst value => c.transfer caller dst value
  | .approve spender value => .ok (c.approve caller spender value)
  | .transferFrom src dst value => c.transferFrom caller src dst value
  | .mint dst value => c.mint caller dst value
  | .burn value => c.burn caller value
  | .setMineCore mineCore => .ok { c with mineCore := mineCore }

/-! ## What a transfer does -/

variable {c} {c' : ClaimToken} {src dst : Address} {value : ℕ}

/-- A transfer moves the value and nothing else. -/
structure Moved (c c' : ClaimToken) (src dst : Address) (value : ℕ) : Prop where
  funded : value ≤ c.balanceOf src
  src_ne : src ≠ 0
  dst_ne : dst ≠ 0
  self : c'.self = c.self
  mineCore : c'.mineCore = c.mineCore
  totalSupply : c'.totalSupply = c.totalSupply
  balances : c'.balanceOf = update (update c.balanceOf src (c.balanceOf src - value)) dst
    (update c.balanceOf src (c.balanceOf src - value) dst + value)

theorem transfer_eq_ok (h : c.transfer src dst value = .ok c') : Moved c c' src dst value := by
  simp only [transfer, move, bind_eq_ok_iff, revertIf_eq_ok] at h
  obtain ⟨_, hsrc, _, hdst, _, -, _, hfunded, h⟩ := h
  obtain rfl := Except.ok.inj h
  exact ⟨not_lt.mp hfunded, hsrc, hdst, rfl, rfl, rfl, rfl⟩

theorem transfer_ok_iff : (∃ c', c.transfer src dst value = .ok c') ↔
    src ≠ 0 ∧ dst ≠ 0 ∧ c.isRestrictedRecipient dst = false ∧ value ≤ c.balanceOf src := by
  simp only [transfer, move, bind_eq_ok_iff, revertIf_eq_ok]
  constructor
  · rintro ⟨c', _, hsrc, _, hdst, _, hallowed, _, hfunded, -⟩
    exact ⟨hsrc, hdst, by simpa using hallowed, not_lt.mp hfunded⟩
  · rintro ⟨hsrc, hdst, hallowed, hfunded⟩
    exact ⟨_, (), hsrc, (), hdst, (), by simpa using hallowed, (), not_lt.mpr hfunded, rfl⟩

theorem transferFrom_eq_ok {spender : Address} (h : c.transferFrom spender src dst value = .ok c') :
    Moved c c' src dst value := by
  obtain ⟨c₁, hspend, h⟩ := bind_eq_ok_iff.mp h
  have hmoved := transfer_eq_ok h
  unfold spendAllowance at hspend
  dsimp only at hspend
  split_ifs at hspend
  · obtain rfl := Except.ok.inj hspend
    exact hmoved
  · obtain rfl := Except.ok.inj hspend
    exact ⟨hmoved.funded, hmoved.src_ne, hmoved.dst_ne, hmoved.self, hmoved.mineCore,
      hmoved.totalSupply, hmoved.balances⟩

namespace Moved

variable (h : Moved c c' src dst value)
include h

/-- The receiver gains the value. -/
theorem balance_dst (hne : src ≠ dst) : c'.balanceOf dst = c.balanceOf dst + value := by
  rw [h.balances, update_self, update_of_ne (Ne.symm hne)]

/-- The sender loses at most the value. -/
theorem balance_src : c.balanceOf src ≤ c'.balanceOf src + value := by
  have := h.funded
  rw [h.balances]
  by_cases hsame : src = dst
  · subst hsame
    rw [update_self, update_self]
    omega
  · rw [update_of_ne hsame, update_self]
    omega

/-- Nobody but the sender loses. -/
theorem balance_other {account : Address} (hne : account ≠ src) :
    c.balanceOf account ≤ c'.balanceOf account := by
  rw [h.balances]
  by_cases hdst : account = dst
  · subst hdst
    rw [update_self, update_of_ne hne]
    exact Nat.le_add_right _ _
  · rw [update_of_ne hdst, update_of_ne hne]

/-- A third account keeps its balance. -/
theorem balance_third {account : Address} (hsrc : account ≠ src) (hdst : account ≠ dst) :
    c'.balanceOf account = c.balanceOf account := by
  rw [h.balances, update_of_ne hdst, update_of_ne hsrc]

end Moved

/-- A mint adds to one balance. -/
theorem mint_balanceOf {caller : Address} (h : c.mint caller dst value = .ok c')
    (account : Address) :
    c'.balanceOf account = c.balanceOf account + if account = dst then value else 0 := by
  simp only [mint, bind_eq_ok_iff, revertIf_eq_ok] at h
  obtain ⟨_, -, _, -, _, -, _, -, supply, -, h⟩ := h
  obtain rfl := Except.ok.inj h
  dsimp only
  by_cases hdst : account = dst
  · subst hdst
    rw [update_self, if_pos rfl]
  · rw [update_of_ne hdst, if_neg hdst, Nat.add_zero]

/-- What can be paid at once can be paid in two parts. -/
theorem transfer_rest {first rest : ℕ} (h : ∃ c', c.transfer src dst (first + rest) = .ok c')
    (hfirst : c.transfer src dst first = .ok c') : ∃ c'', c'.transfer src dst rest = .ok c'' := by
  obtain ⟨hsrc, hdst, hallowed, hfunded⟩ := transfer_ok_iff.mp h
  refine transfer_ok_iff.mpr ⟨hsrc, hdst, ?_, ?_⟩
  · simp only [transfer, move, bind_eq_ok_iff, revertIf_eq_ok] at hfirst
    obtain ⟨_, -, _, -, _, -, _, -, hfirst⟩ := hfirst
    obtain rfl := Except.ok.inj hfirst
    exact hallowed
  · have hmoved := (transfer_eq_ok hfirst).balance_src
    omega

/-! ## Allowances -/

/-- Nobody may move the CLAIM of `account`. -/
def Unapproved (c : ClaimToken) (account : Address) : Prop :=
  ∀ spender, c.allowance account spender = 0

theorem transfer_allowance (h : c.transfer src dst value = .ok c') :
    c'.allowance = c.allowance := by
  simp only [transfer, move, bind_eq_ok_iff, revertIf_eq_ok] at h
  obtain ⟨_, -, _, -, _, -, _, -, h⟩ := h
  obtain rfl := Except.ok.inj h
  rfl

/-- Spending from an account that approved nobody spends nothing. -/
theorem spendAllowance_unapproved {owner spender account : Address} (h : c.Unapproved account)
    (hspend : c.spendAllowance owner spender value = .ok c') :
    c'.Unapproved account ∧ (owner = account → value = 0) := by
  unfold spendAllowance at hspend
  dsimp only at hspend
  split_ifs at hspend with hmax hlow
  · obtain rfl := Except.ok.inj hspend
    refine ⟨h, fun howner ↦ ?_⟩
    rw [howner, h spender] at hmax
    exact absurd hmax (by decide)
  · obtain rfl := Except.ok.inj hspend
    constructor
    · intro spender'
      by_cases howner : account = owner
      · subst howner
        by_cases hspender : spender' = spender
        · subst hspender
          simp [approve, h spender']
        · simp [approve, hspender, h spender']
      · simp [approve, howner, h spender']
    · intro howner
      rw [howner, h spender] at hlow
      exact Nat.eq_zero_of_not_pos hlow

theorem transferFrom_unapproved {spender account : Address} (h : c.Unapproved account)
    (htransfer : c.transferFrom spender src dst value = .ok c') :
    c'.Unapproved account ∧ (src = account → value = 0) := by
  obtain ⟨c₁, hspend, htransfer⟩ := bind_eq_ok_iff.mp htransfer
  obtain ⟨h₁, hzero⟩ := spendAllowance_unapproved h hspend
  refine ⟨fun spender' ↦ ?_, hzero⟩
  rw [transfer_allowance htransfer]
  exact h₁ spender'

/-- The CLAIM of an account that approved nobody leaves only by its own calls. -/
theorem exec_keeps {caller account : Address} (h : c.Unapproved account)
    (hcaller : caller ≠ account) (op : Op) :
    Returns (fun c' ↦ c.balanceOf account ≤ c'.balanceOf account ∧ c'.Unapproved account)
      (c.exec caller op) := by
  cases op with
  | transfer dst value =>
      refine Returns.iff_forall.mpr fun c' hc' ↦
        ⟨(transfer_eq_ok hc').balance_other (Ne.symm hcaller), ?_⟩
      intro spender
      rw [transfer_allowance hc']
      exact h spender
  | approve spender value =>
      refine ⟨le_rfl, fun spender' ↦ ?_⟩
      simp [approve, Ne.symm hcaller, h spender']
  | transferFrom src dst value =>
      refine Returns.iff_forall.mpr fun c' hc' ↦ ?_
      obtain ⟨hkeep, hzero⟩ := transferFrom_unapproved h hc'
      refine ⟨?_, hkeep⟩
      have hmoved := transferFrom_eq_ok hc'
      by_cases hsrc : account = src
      · subst hsrc
        simpa [hzero rfl] using hmoved.balance_src
      · exact hmoved.balance_other hsrc
  | mint dst value =>
      refine Returns.guard fun _ ↦ Returns.guard fun _ ↦ Returns.guard fun _ ↦ ?_
      refine Returns.guard fun _ ↦ Returns.seq fun supply _ ↦ ⟨?_, h⟩
      dsimp only
      by_cases hdst : account = dst
      · subst hdst
        rw [update_self]
        exact Nat.le_add_right _ _
      · rw [update_of_ne hdst]
  | burn value =>
      refine Returns.guard fun _ ↦ Returns.guard fun _ ↦ Returns.guard fun _ ↦ ⟨?_, h⟩
      dsimp only
      rw [update_of_ne (Ne.symm hcaller)]
  | setMineCore mineCore => exact ⟨le_rfl, h⟩

/-! ## What leaves an account -/

/-- At most `amount` leaves `account`, and no allowance of it grows. -/
structure Spends (account : Address) (amount : ℕ) (c c' : ClaimToken) : Prop where
  balance : c.balanceOf account ≤ c'.balanceOf account + amount
  allowance : ∀ spender, c'.allowance account spender ≤ c.allowance account spender

/-- Nothing leaves `account`. -/
abbrev Spares (account : Address) (c c' : ClaimToken) : Prop := c.Spends account 0 c'

section Spends

variable {account owner spender : Address} {amount amount' : ℕ} {c'' : ClaimToken}

theorem Spends.refl (c : ClaimToken) : c.Spares account c := ⟨le_rfl, fun _ ↦ le_rfl⟩

theorem Spends.trans (h : c.Spends account amount c') (h' : c'.Spends account amount' c'') :
    c.Spends account (amount + amount') c'' := by
  refine ⟨?_, fun spender ↦ Nat.le_trans (h'.allowance spender) (h.allowance spender)⟩
  have := h.balance
  have := h'.balance
  omega

theorem Spends.after (h : c.Spends account amount c') (h' : c'.Spares account c'') :
    c.Spends account amount c'' := h.trans h'

theorem Spends.before (h' : c'.Spends account amount c'') (h : c.Spares account c') :
    c.Spends account amount c'' := by
  have hboth := h.trans h'
  rwa [Nat.zero_add] at hboth

theorem Spends.unapproved (h : c.Spends account amount c') (hun : c.Unapproved account) :
    c'.Unapproved account :=
  fun spender ↦ Nat.le_zero.mp (hun spender ▸ h.allowance spender)

theorem approve_spares (hne : account ≠ owner) (spender : Address) (value : ℕ) :
    c.Spares account (c.approve owner spender value) := by
  refine ⟨le_rfl, fun spender' ↦ ?_⟩
  rw [approve]
  dsimp only
  rw [update_of_ne hne]

theorem approve_zero_spares (spender : Address) :
    c.Spares account (c.approve account spender 0) := by
  refine ⟨le_rfl, fun spender' ↦ ?_⟩
  rw [approve]
  dsimp only
  rw [update_self]
  by_cases hspender : spender' = spender
  · subst hspender
    rw [update_self]
    exact Nat.zero_le _
  · rw [update_of_ne hspender]

/-- An approval that is withdrawn after it has been used. -/
theorem approved_spends (h : (c.approve account spender value).Spends account amount c') :
    c.Spends account amount (c'.approve account spender 0) := by
  refine ⟨h.balance, fun spender' ↦ ?_⟩
  have hused := h.allowance spender'
  rw [approve] at hused ⊢
  dsimp only at hused ⊢
  rw [update_self] at hused ⊢
  by_cases hspender : spender' = spender
  · subst hspender
    rw [update_self]
    exact Nat.zero_le _
  · rw [update_of_ne hspender] at hused ⊢
    exact hused

theorem spendAllowance_spares (h : c.spendAllowance owner spender value = .ok c') :
    c.Spares account c' := by
  unfold spendAllowance at h
  dsimp only at h
  split_ifs at h
  · obtain rfl := Except.ok.inj h
    exact .refl c
  · obtain rfl := Except.ok.inj h
    by_cases hne : account = owner
    · subst hne
      refine ⟨le_rfl, fun spender' ↦ ?_⟩
      rw [approve]
      dsimp only
      rw [update_self]
      by_cases hspender : spender' = spender
      · subst hspender
        rw [update_self]
        exact Nat.sub_le _ _
      · rw [update_of_ne hspender]
    · exact approve_spares hne spender _

theorem transfer_spends (h : c.transfer src dst value = .ok c') : c.Spends src value c' :=
  ⟨(transfer_eq_ok h).balance_src, fun _ ↦ Nat.le_of_eq (congrFun₂ (transfer_allowance h) _ _)⟩

theorem transfer_spares (hne : account ≠ src) (h : c.transfer src dst value = .ok c') :
    c.Spares account c' :=
  ⟨(transfer_eq_ok h).balance_other hne, fun _ ↦
    Nat.le_of_eq (congrFun₂ (transfer_allowance h) _ _)⟩

theorem transferFrom_spends (h : c.transferFrom spender src dst value = .ok c') :
    c.Spends src value c' := by
  obtain ⟨c₁, hspend, h⟩ := bind_eq_ok_iff.mp h
  exact (transfer_spends h).before (spendAllowance_spares hspend)

theorem transferFrom_spares (hne : account ≠ src)
    (h : c.transferFrom spender src dst value = .ok c') : c.Spares account c' := by
  obtain ⟨c₁, hspend, h⟩ := bind_eq_ok_iff.mp h
  exact (transfer_spares hne h).before (spendAllowance_spares hspend)

/-- A mint takes from nobody. -/
theorem mint_spares (account : Address) {caller : Address} (h : c.mint caller dst value = .ok c') :
    c.Spares account c' := by
  refine ⟨?_, ?_⟩
  · rw [mint_balanceOf h]
    omega
  · simp only [mint, bind_eq_ok_iff, revertIf_eq_ok] at h
    obtain ⟨_, -, _, -, _, -, _, -, supply, -, h⟩ := h
    obtain rfl := Except.ok.inj h
    exact fun _ ↦ le_rfl

/-- The calls of others spare an account that approved nobody. -/
theorem exec_spares {caller : Address} (hun : c.Unapproved account) (hcaller : caller ≠ account)
    {op : Op} (h : c.exec caller op = .ok c') : c.Spares account c' := by
  have hkeeps := Returns.iff_forall.mp (exec_keeps hun hcaller op) c' h
  exact ⟨hkeeps.1, fun spender ↦ hkeeps.2 spender ▸ Nat.zero_le _⟩

end Spends

end ClaimToken

end ClaimRush
