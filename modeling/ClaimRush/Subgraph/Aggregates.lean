import ClaimRush.Subgraph.Mirror
import ClaimRush.Lib.FiniteTotal

/-!
# User aggregates

A user's locked total and ve balance are kept by differences: every handler takes
the old contribution of a lock out and puts the new one in, with differences that
stop at zero.  They stay the sums over the locks that the user owns as long as no
handler takes a lock out that is already gone.
-/

open Function

namespace ClaimRush.Subgraph

open VeClaimNFT (Call Event IShareholderRoyalties Lock Op VeState World)
open VeClaimNFT.VeState

/-! ## Sums over owned locks -/

/-- The stored snapshot of a lock. -/
def VeLock.snapshot (l : VeLock) : ℕ := l.currentVeWei.getD 0

/-- What an entity counts for a user. -/
def share (f : VeLock → ℕ) (a : Address) : Option VeLock → ℕ
  | none => 0
  | some l => if l.owner = a then f l else 0

noncomputable def ownedTotal (f : VeLock → ℕ) (locks : ℕ → Option VeLock) (a : Address) : ℕ :=
  total fun id ↦ share f a (locks id)

@[simp] theorem share_none (f : VeLock → ℕ) (a : Address) : share f a none = 0 := rfl

theorem share_owner {f : VeLock → ℕ} {a : Address} {l : VeLock} (h : l.owner = a) :
    share f a (some l) = f l := if_pos h

theorem share_zero {f : VeLock → ℕ} (a : Address) {l : VeLock} (h : f l = 0) :
    share f a (some l) = 0 := by
  simp [share, h]

/-- The aggregates of every user are the sums over the locks that it owns. -/
structure Aggregated (locks : ℕ → Option VeLock) (users : Address → User) : Prop where
  finite : {id | (locks id).isSome}.Finite
  snapshots : ∀ id l, locks id = some l → l.currentVeWei.isSome
  locked : ∀ a, (users a).totalLockedClaimWei = ownedTotal VeLock.amountWei locks a
  ve : ∀ a, (users a).veBalanceWei = ownedTotal VeLock.snapshot locks a

/-- An entity that counts for no user but `u`. -/
def Belongs (u : Address) (o : Option VeLock) : Prop :=
  ∀ l, o = some l → l.owner = u ∨ l.amountWei = 0 ∧ l.snapshot = 0

theorem Belongs.none (u : Address) : Belongs u none := fun _ h ↦ nomatch h

theorem Belongs.owner {u : Address} {l : VeLock} (h : l.owner = u) : Belongs u (some l) := by
  rintro _ ⟨⟩
  exact .inl h

theorem Belongs.gone {l : VeLock} (hamount : l.amountWei = 0) (hve : l.snapshot = 0) (u : Address) :
    Belongs u (some l) := by
  rintro _ ⟨⟩
  exact .inr ⟨hamount, hve⟩

theorem Belongs.share_amount {u a : Address} {o : Option VeLock} (h : Belongs u o) (ha : a ≠ u) :
    share VeLock.amountWei a o = 0 := by
  cases o with
  | none => rfl
  | some l =>
      rcases h l rfl with howner | ⟨hamount, -⟩
      · exact if_neg fun hl ↦ ha (hl.symm.trans howner)
      · exact share_zero a hamount

theorem Belongs.share_snapshot {u a : Address} {o : Option VeLock} (h : Belongs u o) (ha : a ≠ u) :
    share VeLock.snapshot a o = 0 := by
  cases o with
  | none => rfl
  | some l =>
      rcases h l rfl with howner | ⟨-, hve⟩
      · exact if_neg fun hl ↦ ha (hl.symm.trans howner)
      · exact share_zero a hve

namespace Aggregated

variable {locks : ℕ → Option VeLock} {users : Address → User}

theorem entries (h : Aggregated locks users) (f : VeLock → ℕ) (a : Address) :
    FiniteEntries fun id ↦ share f a (locks id) := by
  refine h.finite.subset fun id hid ↦ ?_
  change (locks id).isSome = true
  cases hl : locks id with
  | none => exact absurd (congrArg (share f a) hl) hid
  | some l => rfl

theorem ownedTotal_update (h : Aggregated locks users) (f : VeLock → ℕ) (a : Address) (id : ℕ)
    (l : VeLock) :
    ownedTotal f (update locks id (some l)) a + share f a (locks id) =
      ownedTotal f locks a + share f a (some l) := by
  have hwritten : (fun x ↦ share f a (update locks id (some l) x)) =
      update (fun x ↦ share f a (locks x)) id (share f a (some l)) := by
    funext x
    by_cases hx : x = id
    · simp [hx]
    · simp [hx]
  unfold ownedTotal
  rw [hwritten]
  exact total_update (h.entries f a) id _

theorem share_le (h : Aggregated locks users) (f : VeLock → ℕ) (a : Address) (id : ℕ) :
    share f a (locks id) ≤ ownedTotal f locks a :=
  le_total (h.entries f a) id

/-- An entity of `u` is rewritten, and the aggregates of `u` follow. -/
theorem rewrite (h : Aggregated locks users) (u : Address) (u' : User) (id : ℕ) (l : VeLock)
    (hold : Belongs u (locks id)) (hnew : Belongs u (some l)) (hl : l.currentVeWei.isSome)
    (hlocked : u'.totalLockedClaimWei + share VeLock.amountWei u (locks id) =
      (users u).totalLockedClaimWei + share VeLock.amountWei u (some l))
    (hve : u'.veBalanceWei + share VeLock.snapshot u (locks id) =
      (users u).veBalanceWei + share VeLock.snapshot u (some l)) :
    Aggregated (update locks id (some l)) (update users u u') := by
  refine ⟨?_, fun x lx hlx ↦ ?_, fun a ↦ ?_, fun a ↦ ?_⟩
  · refine (h.finite.insert id).subset fun x hx ↦ ?_
    by_cases hxid : x = id
    · exact .inl hxid
    · exact .inr (by simpa [hxid] using hx)
  · by_cases hx : x = id
    · rw [hx, update_self] at hlx
      exact Option.some.inj hlx ▸ hl
    · rw [update_of_ne hx] at hlx
      exact h.snapshots x lx hlx
  · have hsum := h.ownedTotal_update VeLock.amountWei a id l
    have hbefore := h.locked a
    by_cases ha : a = u
    · rw [ha] at hsum hbefore ⊢
      rw [update_self]
      omega
    · rw [hold.share_amount ha, hnew.share_amount ha] at hsum
      rw [update_of_ne ha]
      omega
  · have hsum := h.ownedTotal_update VeLock.snapshot a id l
    have hbefore := h.ve a
    by_cases ha : a = u
    · rw [ha] at hsum hbefore ⊢
      rw [update_self]
      omega
    · rw [hold.share_snapshot ha, hnew.share_snapshot ha] at hsum
      rw [update_of_ne ha]
      omega

end Aggregated

/-! ## Differences -/

theorem clampedSub_eq (a b : ℕ) : clampedSub a b = a - b := by
  unfold clampedSub
  split_ifs <;> omega

@[simp] theorem replace_locked (user : User) (oldVe newVe : ℕ) :
    (replaceUserVeContribution user oldVe newVe).totalLockedClaimWei =
      user.totalLockedClaimWei := by
  unfold replaceUserVeContribution
  split_ifs <;> rfl

/-- No clamp when the old contribution is part of the aggregate. -/
theorem replace_ve (user : User) {oldVe : ℕ} (newVe : ℕ) (h : oldVe ≤ user.veBalanceWei) :
    (replaceUserVeContribution user oldVe newVe).veBalanceWei + oldVe =
      user.veBalanceWei + newVe := by
  unfold replaceUserVeContribution
  split_ifs with hge
  · change user.veBalanceWei + (newVe - oldVe) + oldVe = _
    omega
  · change clampedSub user.veBalanceWei (oldVe - newVe) + oldVe = _
    rw [clampedSub_eq]
    omega

theorem lockVeSnapshot_eq {l : VeLock} (h : l.currentVeWei.isSome) (now : ℕ) :
    lockVeSnapshot l now = l.snapshot := by
  obtain ⟨ve, hve⟩ := Option.isSome_iff_exists.mp h
  rw [lockVeSnapshot, VeLock.snapshot, hve]
  rfl

namespace Aggregated

variable {locks : ℕ → Option VeLock} {users : Address → User} {id now v : ℕ} {u : Address}
  {l l' : VeLock}

theorem snapshot_le (h : Aggregated locks users) (hl : locks id = some l) (howner : l.owner = u) :
    l.snapshot ≤ (users u).veBalanceWei := by
  have hle := h.share_le VeLock.snapshot u id
  rwa [hl, share_owner howner, ← h.ve] at hle

theorem amount_le (h : Aggregated locks users) (hl : locks id = some l) (howner : l.owner = u) :
    l.amountWei ≤ (users u).totalLockedClaimWei := by
  have hle := h.share_le VeLock.amountWei u id
  rwa [hl, share_owner howner, ← h.locked] at hle

/-- A lock changes in its owner's hands. -/
theorem change (h : Aggregated locks users) {user : User} (hl : locks id = some l)
    (howner : l.owner = u) (howner' : l'.owner = u) (hv : l'.currentVeWei = some v)
    (hve : user.veBalanceWei = (users u).veBalanceWei)
    (hlocked : user.totalLockedClaimWei + l.amountWei =
      (users u).totalLockedClaimWei + l'.amountWei) :
    Aggregated (update locks id (some l')) (update users u
      (replaceUserVeContribution user (lockVeSnapshot l now) v)) := by
  have hle := h.snapshot_le hl howner
  have hsnapshot : l'.snapshot = v := by rw [VeLock.snapshot, hv, Option.getD_some]
  rw [lockVeSnapshot_eq (h.snapshots id l hl)]
  rw [← hve] at hle
  refine h.rewrite u _ id l' (hl ▸ .owner howner) (.owner howner') (by rw [hv]; rfl) ?_ ?_
  · rw [hl, share_owner howner, share_owner howner', replace_locked, hlocked]
  · rw [hl, share_owner howner, share_owner howner', hsnapshot, ← hve]
    exact replace_ve user v hle

/-- A lock leaves its owner. -/
theorem leave (h : Aggregated locks users) (now : ℕ) (l' : VeLock) (hl : locks id = some l)
    (howner : l.owner = u) (hamount : l'.amountWei = 0) (hv : l'.currentVeWei = some 0) :
    Aggregated (update locks id (some l')) (update users u
      (replaceUserVeContribution ((users u).subLocked l.amountWei) (lockVeSnapshot l now) 0)) := by
  have hle := h.snapshot_le hl howner
  have hamountLe := h.amount_le hl howner
  have hsnapshot : l'.snapshot = 0 := by rw [VeLock.snapshot, hv, Option.getD_some]
  rw [lockVeSnapshot_eq (h.snapshots id l hl)]
  refine h.rewrite u _ id l' (hl ▸ .owner howner) (.gone hamount hsnapshot u)
    (by rw [hv]; rfl) ?_ ?_
  · rw [hl, share_owner howner, share_zero u hamount, replace_locked]
    change clampedSub _ _ + _ = _
    rw [clampedSub_eq]
    omega
  · rw [hl, share_owner howner, share_zero u hsnapshot]
    exact replace_ve ((users u).subLocked l.amountWei) 0 hle

/-- A lock comes to a user from nobody. -/
theorem join (h : Aggregated locks users) (id : ℕ) (u : Address) (l' : VeLock)
    (hnone : ∀ a, Belongs a (locks id) ∧
      share VeLock.amountWei a (locks id) = 0 ∧ share VeLock.snapshot a (locks id) = 0)
    (howner : l'.owner = u) (hv : l'.currentVeWei = some v) :
    Aggregated (update locks id (some l')) (update users u
      (replaceUserVeContribution ((users u).addLocked l'.amountWei) 0 v)) := by
  have hsnapshot : l'.snapshot = v := by rw [VeLock.snapshot, hv, Option.getD_some]
  obtain ⟨hold, hamount, hve⟩ := hnone u
  refine h.rewrite u _ id l' hold (.owner howner) (by rw [hv]; rfl) ?_ ?_
  · rw [hamount, share_owner howner, replace_locked]
    rfl
  · rw [hve, share_owner howner, hsnapshot]
    exact replace_ve ((users u).addLocked l'.amountWei) v (Nat.zero_le _)

theorem relist (h : Aggregated locks users) (listed : ℕ → Bool) :
    Aggregated (fun id ↦ (locks id).map fun l ↦ { l with listed := listed id }) users := by
  have hshare (f : VeLock → ℕ) (hf : ∀ (l : VeLock) (b : Bool), f { l with listed := b } = f l)
      (a : Address) : ownedTotal f (fun id ↦ (locks id).map fun l ↦ { l with listed := listed id })
        a = ownedTotal f locks a := by
    refine congrArg total (funext fun id ↦ ?_)
    dsimp only
    cases locks id with
    | none => rfl
    | some l => simp [share, hf]
  refine ⟨?_, fun id l hl ↦ ?_, fun a ↦ ?_, fun a ↦ ?_⟩
  · simpa only [Option.isSome_map] using h.finite
  · obtain ⟨l₀, hl₀, rfl⟩ := Option.map_eq_some_iff.mp hl
    exact h.snapshots id l₀ hl₀
  · rw [hshare _ (fun _ _ ↦ rfl)]
    exact h.locked a
  · rw [hshare _ (fun _ _ ↦ rfl)]
    exact h.ve a

end Aggregated

/-! ## Operations -/

section Operations

variable {exact : Prop} {store : Store} {s : VeState} {b : Block} {id : ℕ} {user : Address}

/-- The store's aggregates. -/
def Store.Exact (store : Store) : Prop := Aggregated store.locks store.users

variable (h : Mirror exact store s) (hagg : store.Exact)
include h hagg

theorem created_exact (amount lockEnd : ℕ) (autoMax : Bool) :
    (store.handleLockCreated b.timestamp user s.nextTokenId amount lockEnd autoMax).Exact := by
  have hnone : store.locks s.nextTokenId = none := by
    rw [← Option.not_isSome_iff_eq_none, h.minted]
    omega
  refine hagg.join _ user ⟨user, amount, lockEnd, autoMax, false, some _⟩ (fun a ↦ ?_) rfl rfl
  rw [hnone]
  exact ⟨.none a, rfl, rfl⟩

theorem toppedUp_exact (huser : s.owners id = user) (hne : user ≠ 0) (amount : ℕ) :
    (store.handleLockAmountIncreased b.timestamp user id amount).Exact := by
  obtain ⟨l, hl, hm⟩ := h.lookup (huser ▸ hne)
  unfold Store.handleLockAmountIncreased
  rw [loadOrCreateVeLock_of_some hl]
  refine hagg.change hl (hm.owner.trans huser) rfl rfl rfl ?_
  change _ + _ + _ = _ + (_ + _)
  omega

theorem extended_exact (huser : s.owners id = user) (hne : user ≠ 0) (newEnd : ℕ) :
    (store.handleLockExtended b.timestamp user id newEnd).Exact := by
  obtain ⟨l, hl, hm⟩ := h.lookup (huser ▸ hne)
  unfold Store.handleLockExtended
  rw [loadOrCreateVeLock_of_some hl]
  exact hagg.change hl (hm.owner.trans huser) rfl rfl rfl rfl

theorem toggled_exact (huser : s.owners id = user) (hne : user ≠ 0) (enabled : Bool) :
    (store.handleAutoMaxSet b.timestamp user id enabled).Exact := by
  obtain ⟨l, hl, hm⟩ := h.lookup (huser ▸ hne)
  unfold Store.handleAutoMaxSet
  rw [loadOrCreateVeLock_of_some hl]
  exact hagg.change hl (hm.owner.trans huser) (hm.owner.trans huser) rfl rfl rfl

theorem handed_exact (hid : s.owners id ≠ 0) :
    (store.handleTransfer b (s.owners id) s.furnace id).Exact := by
  obtain ⟨l, hl, hm⟩ := h.lookup hid
  have hfurnace : s.furnace ≠ 0 := h.wired id hid
  unfold Store.handleTransfer
  rw [if_neg hid]
  split_ifs with hself
  · exact hagg
  · rw [loadOrCreateVeLock_of_some hl]
    have hleft := hagg.leave b.timestamp { owner := 0 } hl hm.owner rfl rfl
    have hjoined := hleft.join id s.furnace ⟨s.furnace, l.amountWei, l.lockEnd,
      l.autoMax, false, some (currentVeWei l.amountWei l.lockEnd b.timestamp l.autoMax)⟩
      (fun a ↦ ?_) rfl rfl
    · rw [update_idem, update_of_ne (Ne.symm hself)] at hjoined
      simpa [Store.Exact, Store.saveLock, Store.saveUser] using hjoined
    · rw [update_self]
      exact ⟨.gone rfl rfl a, share_zero a rfl, share_zero a rfl⟩

/-- A lock of a user is burned: the burn is left to `LockUnlocked`. -/
theorem unlocked_exact (huser : s.owners id = user) (hne : user ≠ 0) (hforeign : user ≠ s.furnace) :
    ((store.handleTransfer b user 0 id).handleLockUnlocked b.timestamp user id
      (s.locks id).amount).Exact := by
  have hid : s.owners id ≠ 0 := huser ▸ hne
  obtain ⟨l, hl, hm⟩ := h.lookup hid
  have hfurnace : store.furnace ≠ 0 := h.furnace ▸ h.wired id hid
  rw [handleTransfer_burn hne, handleBurn_user hfurnace (h.furnace ▸ hforeign), ← hm.amount]
  have hcleared : Store.unlockedLock b.timestamp l.amountWei l =
      { l with
        owner := 0, amountWei := 0, lockEnd := 0, autoMax := false, listed := false
        currentVeWei := some 0 } := by
    have hzero : clampedSub l.amountWei l.amountWei = 0 := by
      rw [clampedSub_eq, Nat.sub_self]
    simp [Store.unlockedLock, hzero, currentVeWei]
  have hleft := hagg.leave b.timestamp (Store.unlockedLock b.timestamp l.amountWei l) hl
    (hm.owner.trans huser) (by rw [hcleared]) (by rw [hcleared])
  have hsnapshot :
      lockVeSnapshot (Store.unlockedLock b.timestamp l.amountWei l) b.timestamp = 0 := by
    rw [hcleared]
    rfl
  simpa [Store.handleLockUnlocked, Store.Exact, Store.saveLock, Store.saveUser,
    loadOrCreateVeLock_of_some hl, hsnapshot] using hleft

/-- The last lock of the Furnace is burned: `LockUnlocked` subtracts it once more,
and the clamp hides that because nothing is left. -/
theorem furnaceBurned_exact (hcustody : s.owners id = s.furnace) (hne : s.furnace ≠ 0)
    (hamount : (s.locks id).amount ≠ 0) (halone : ∀ x, x ≠ id → s.owners x ≠ s.furnace) :
    ((store.handleTransfer b s.furnace 0 id).handleLockUnlocked b.timestamp s.furnace id
      (s.locks id).amount).Exact := by
  obtain ⟨l, hl, hm⟩ := h.lookup (hcustody ▸ hne)
  have howner : l.owner = s.furnace := hm.owner.trans hcustody
  have hfurnace : store.furnace = s.furnace := h.furnace
  let gone : VeLock :=
    { l with owner := 0, amountWei := 0, listed := false, currentVeWei := some 0 }
  have hleft : Aggregated (update store.locks id (some gone)) _ :=
    hagg.leave b.timestamp gone hl howner rfl rfl
  generalize hstore : store.handleBurn b s.furnace id = burned
  have hburned : burned.locks = update store.locks id (some gone) ∧
      burned.users = update store.users
      s.furnace (replaceUserVeContribution ((store.users s.furnace).subLocked l.amountWei)
        (lockVeSnapshot l b.timestamp) 0) := by
    have hkept : ¬ (l.owner = 0 ∨ l.amountWei = 0) := by
      rw [howner, hm.amount]
      exact not_or.mpr ⟨hne, hamount⟩
    rw [← hstore, Store.handleBurn, canonicalFurnace_of_ne (hfurnace ▸ hne), hfurnace,
      if_neg (by simp [hne])]
    have hload :
        ({ store with furnace := s.furnace } : Store).loadOrCreateVeLock id s.furnace = l :=
      loadOrCreateVeLock_of_some hl s.furnace
    simp [hload, hkept, Store.saveLock, Store.saveUser, gone]
  rw [← hburned.1, ← hburned.2] at hleft
  have hl' : burned.locks id = some gone := by rw [hburned.1, update_self]
  have hnothing : (burned.users s.furnace).totalLockedClaimWei = 0 := by
    rw [hleft.locked]
    refine (total_eq_zero_iff (hleft.entries _ _)).mpr fun x ↦ ?_
    rw [hburned.1]
    by_cases hx : x = id
    · rw [hx, update_self]
      exact share_zero _ rfl
    · rw [update_of_ne hx]
      cases hlx : store.locks x with
      | none => rfl
      | some lx => exact if_neg fun heq ↦ halone x hx ((h.entry x lx hlx).owner.symm.trans heq)
  rw [handleTransfer_burn hne, hstore]
  have hcleared : Store.unlockedLock b.timestamp (s.locks id).amount gone =
      { gone with lockEnd := 0, autoMax := false } := by
    simp [Store.unlockedLock, clampedSub_eq, currentVeWei, gone]
  have hagain := hleft.rewrite s.furnace (replaceUserVeContribution
    ((burned.users s.furnace).subLocked (s.locks id).amount) 0 0) id
    { gone with lockEnd := 0, autoMax := false } (hl' ▸ .gone rfl rfl _) (.gone rfl rfl _)
    rfl ?_ ?_
  · simpa [Store.handleLockUnlocked, Store.Exact, Store.saveLock, Store.saveUser,
      loadOrCreateVeLock_of_some hl', hcleared, lockVeSnapshot, gone] using hagain
  · rw [hl', share_zero _ rfl, share_zero _ rfl, replace_locked]
    change clampedSub _ _ = _
    rw [clampedSub_eq, hnothing]
    omega
  · rw [hl', share_zero _ rfl, share_zero _ rfl]
    exact replace_ve _ 0 (Nat.zero_le _)

theorem merged_exact {fromId intoId : ℕ} (hdistinct : fromId ≠ intoId)
    (hfrom : s.owners fromId = user) (hinto : s.owners intoId = user) (hne : user ≠ 0)
    (hforeign : user ≠ s.furnace) :
    ((store.handleTransfer b user 0 fromId).handleLockMerged b.timestamp user fromId intoId
      (s.locks fromId).amount).Exact := by
  obtain ⟨f, hf, hmf⟩ := h.lookup (hfrom ▸ hne)
  obtain ⟨i, hi, hmi⟩ := h.lookup (hinto ▸ hne)
  have hfurnace : store.furnace ≠ 0 := h.furnace ▸ h.wired fromId (hfrom ▸ hne)
  have hownerFrom : f.owner = user := hmf.owner.trans hfrom
  have hownerInto : i.owner = user := hmi.owner.trans hinto
  rw [handleTransfer_burn hne, handleBurn_user hfurnace (h.furnace ▸ hforeign), ← hmf.amount]
  have hzero : clampedSub f.amountWei f.amountWei = 0 := by
    rw [clampedSub_eq, Nat.sub_self]
  let newFrom := Store.mergedFrom b.timestamp f.amountWei f
  let newInto := Store.mergedInto b.timestamp user f.amountWei f i
  have hgone : newFrom.amountWei = 0 ∧ newFrom.snapshot = 0 := by
    refine ⟨hzero, ?_⟩
    change currentVeWei (clampedSub f.amountWei f.amountWei) _ _ _ = 0
    simp [hzero, currentVeWei]
  -- The from lock leaves first, and then its amount joins the into lock.
  let without : User :=
    ⟨(store.users user).veBalanceWei - f.snapshot,
      (store.users user).totalLockedClaimWei - f.amountWei⟩
  have hfromVe := hagg.snapshot_le hf hownerFrom
  have hfromAmount := hagg.amount_le hf hownerFrom
  have hleft : Aggregated (update store.locks fromId (some newFrom))
      (update store.users user without) := by
    refine hagg.rewrite user without fromId newFrom (hf ▸ .owner hownerFrom)
      (.gone hgone.1 hgone.2 _) rfl ?_ ?_
    · rw [hf, share_owner hownerFrom, share_zero _ hgone.1]
      exact Nat.sub_add_cancel hfromAmount
    · rw [hf, share_owner hownerFrom, share_zero _ hgone.2]
      exact Nat.sub_add_cancel hfromVe
  have hi' : update store.locks fromId (some newFrom) intoId = some i := by
    rw [update_of_ne hdistinct.symm, hi]
  have hownerNew : newInto.owner = user := rfl
  have hintoVe := hleft.snapshot_le hi' hownerInto
  rw [update_self] at hintoVe
  have hboth : f.snapshot + i.snapshot ≤ (store.users user).veBalanceWei := by
    simp only [without] at hintoVe
    omega
  have hreplaced := replace_ve (store.users user) (newFrom.snapshot + newInto.snapshot) hboth
  have hjoined := hleft.rewrite user (replaceUserVeContribution (store.users user)
    (f.snapshot + i.snapshot) (newFrom.snapshot + newInto.snapshot)) intoId newInto
    (hi' ▸ .owner hownerInto) (.owner hownerNew) rfl ?_ ?_
  · rw [update_idem] at hjoined
    have hloadFrom := loadOrCreateVeLock_of_some hf user
    have hloadInto := loadOrCreateVeLock_of_some hi user
    simp only [Store.handleLockMerged, Store.Exact, Store.saveLock, Store.saveUser, hloadFrom,
      hloadInto, lockVeSnapshot_eq (hagg.snapshots _ _ hf),
      lockVeSnapshot_eq (hagg.snapshots _ _ hi), deactivateListing_locks, deactivateListing_users]
    exact hjoined
  · rw [hi', share_owner hownerInto, share_owner hownerNew, replace_locked, update_self]
    change _ + i.amountWei = (_ - f.amountWei) + (i.amountWei + f.amountWei)
    omega
  · rw [hi', share_owner hownerInto, share_owner hownerNew, update_self]
    simp only [without] at hintoVe ⊢
    have hnone := hgone.2
    omega

end Operations

/-! ## Every run -/

/-- A lock in the custody of the Furnace is burned only while it is the only one,
and is never merged away. -/
def FurnaceAlone (s : VeState) : Op → Prop
  | .mergeLocksFor user _ _ => user ≠ s.furnace
  | .unlock tokenId => s.owners tokenId = s.furnace → ∀ x, x ≠ tokenId → s.owners x ≠ s.furnace
  | .unlockExpiredForUser _ tokenId =>
      s.owners tokenId = s.furnace → ∀ x, x ≠ tokenId → s.owners x ≠ s.furnace
  | .furnaceBurnAndWithdraw tokenId _ => ∀ x, x ≠ tokenId → s.owners x ≠ s.furnace
  | _ => True

variable {S : Type} {exact : Prop} {port : IShareholderRoyalties S} {call : Call} {w w' : World S}
  {store : Store} {b : Block}

theorem withdrawn_exact {s : VeState} {id : ℕ} {user : Address} (h : Mirror exact store s)
    (hagg : store.Exact) (huser : s.owners id = user) (hid : s.owners id ≠ 0)
    (hamount : (s.locks id).amount ≠ 0)
    (halone : s.owners id = s.furnace → ∀ x, x ≠ id → s.owners x ≠ s.furnace) :
    ((store.handleTransfer b user 0 id).handleLockUnlocked b.timestamp user id
      (s.locks id).amount).Exact := by
  by_cases hforeign : user = s.furnace
  · rw [hforeign] at huser ⊢
    exact furnaceBurned_exact h hagg huser (huser ▸ hid) hamount (halone huser)
  · exact unlocked_exact h hagg huser (huser ▸ hid) hforeign

/-- Replaying the log of an operation keeps the aggregates. -/
theorem exec_exact {op : Op} (h : Mirror exact store w.ve) (hagg : store.Exact)
    (hburned : ∀ id, w.ve.owners id = 0 → w.ve.locks id = {})
    (hexec : VeClaimNFT.exec port call w op = .ok w') (halone : FurnaceAlone w.ve op)
    (hb : b.timestamp = call.timestamp) : (store.replay b (op.log call w.ve)).Exact := by
  have heffect := (VeClaimNFT.exec_effect port call w op).of_ok hexec
  obtain ⟨now, isLocal, tryFurnace⟩ := b
  obtain rfl : now = call.timestamp := hb
  cases op with
  | createLockFor user amount duration autoMax => exact created_exact h hagg _ _ _
  | addToLockFor user tokenId amount =>
      exact toppedUp_exact h hagg heffect.2.owner heffect.2.user_ne _
  | extendLockToFor user tokenId newEnd =>
      exact extended_exact h hagg heffect.2.owner heffect.2.user_ne _
  | mergeLocksFor user fromTokenId intoTokenId =>
      exact merged_exact h hagg heffect.2.distinct heffect.2.from_owner heffect.2.into_owner
        heffect.2.user_ne halone
  | setAutoMax tokenId enabled =>
      have hlive : w.ve.owners tokenId ≠ 0 := fun hzero ↦ by
        have hmutable := heffect.mutable.unexpired
        rw [hburned tokenId hzero] at hmutable
        exact absurd (hmutable rfl) (Nat.not_lt_zero _)
      rw [Op.log]
      split_ifs
      · exact hagg
      · exact toggled_exact h hagg heffect.owner (heffect.owner ▸ hlive) _
  | unlock tokenId =>
      exact withdrawn_exact h hagg heffect.owner heffect.owner_ne heffect.amount_ne halone
  | unlockExpiredForUser user tokenId =>
      exact withdrawn_exact h hagg heffect.owner heffect.owner_ne heffect.amount_ne halone
  | furnaceBurnAndWithdraw tokenId recipient =>
      exact withdrawn_exact h hagg heffect.2.1 heffect.2.2.owner_ne heffect.2.2.amount_ne
        fun _ ↦ halone
  | transferFrom src dst tokenId | safeTransferFrom src dst tokenId =>
      obtain rfl := heffect.owner
      obtain rfl := heffect.dst_eq
      exact handed_exact h hagg heffect.src_ne
  | setFurnace furnace => exact hagg
  | setListed | checkpointGlobalState | setMineMarket | freezeConfig => exact hagg

/-- A merge of a user's locks leaves every locked total as it is. -/
theorem merge_locked {s : VeState} {user : Address} {fromId intoId amount : ℕ}
    (h : Mirror exact store s) (hid : s.owners fromId ≠ 0) (hne : user ≠ 0)
    (hforeign : user ≠ s.furnace) (a : Address) :
    (((store.handleTransfer b user 0 fromId).handleLockMerged b.timestamp user fromId intoId
      amount).users a).totalLockedClaimWei = (store.users a).totalLockedClaimWei := by
  have hfurnace : store.furnace ≠ 0 := h.furnace ▸ h.wired fromId hid
  rw [handleTransfer_burn hne, handleBurn_user hfurnace (h.furnace ▸ hforeign)]
  change (update (Store.users _) user _ a).totalLockedClaimWei = _
  by_cases ha : a = user
  · rw [ha, update_self, replace_locked]
  · rw [update_of_ne ha]
    exact congrArg (fun users ↦ (users a).totalLockedClaimWei) (deactivateListing_users _)

variable {c : Config S}

theorem reachable_exact (h : (indexing port fun _ s op ↦ FurnaceAlone s op).Reachable c) :
    c.store.Exact := by
  refine h.invariant (I := fun c ↦ c.store.Exact) ?_ ?_
  · rintro ⟨chain, store⟩ ⟨-, rfl⟩
    have hnone (f : VeLock → ℕ) (a : Address) : 0 = ownedTotal f (fun _ ↦ none) a :=
      total_zero.symm
    refine ⟨?_, (fun _ _ hl ↦ nomatch hl), hnone _, hnone _⟩
    exact Set.finite_empty.subset fun id hid ↦ nomatch hid
  · rintro c c' hc hagg hstep
    cases hstep with
    | op call op b hblock hnow halone hexec =>
        have hburned := (VeClaimNFT.reachable_sound (reachable_chain hc)).accounted.burned
        have hmirror : Mirror False c.store c.chain.world.ve :=
          reachable_mirror (fun _ _ _ _ hfalse ↦ hfalse.elim) hc
        rw [replay_exec hexec]
        exact exec_exact hmirror hagg hburned hexec halone hblock
    | outside royalties claim => exact hagg
    | market listed activeListings => exact hagg.relist listed

/-- The locked total of a user with one lock. -/
theorem locked_eq_amount {s : VeState} {id : ℕ} {a : Address} (h : Mirror exact store s)
    (hagg : store.Exact) (howner : s.owners id = a) (hid : s.owners id ≠ 0)
    (halone : ∀ x, x ≠ id → s.owners x ≠ a) :
    (store.users a).totalLockedClaimWei = (s.locks id).amount := by
  obtain ⟨l, hl, hm⟩ := h.lookup hid
  rw [hagg.locked, ownedTotal, total_eq_sum (s := {id}) fun x hx ↦ ?_]
  · rw [Finset.sum_singleton, hl, share_owner (hm.owner.trans howner), hm.amount]
  · by_contra hne
    have hne : x ≠ id := fun heq ↦ hne (Finset.mem_singleton.mpr heq)
    refine hx ?_
    cases hlx : store.locks x with
    | none => rfl
    | some lx => exact if_neg fun heq ↦ halone x hne ((h.entry x lx hlx).owner.symm.trans heq)

theorem locked_eq_zero {s : VeState} {a : Address} (h : Mirror exact store s) (hagg : store.Exact)
    (hnone : ∀ x, s.owners x ≠ a) : (store.users a).totalLockedClaimWei = 0 := by
  rw [hagg.locked]
  refine (total_eq_zero_iff (hagg.entries _ _)).mpr fun x ↦ ?_
  cases hlx : store.locks x with
  | none => rfl
  | some lx => exact if_neg fun heq ↦ hnone x ((h.entry x lx hlx).owner.symm.trans heq)

/-- The aggregates are exact in every run in which the Furnace burns each lock while
it holds no other; then no locked total moves in a merge, and a burn takes the amount
of the lock from the Furnace once. -/
theorem aggregates_exact (port : IShareholderRoyalties S) (c : Config S)
    (h : (indexing port fun _ s op ↦ FurnaceAlone s op).Reachable c) :
    Aggregated c.store.locks c.store.users ∧
      ∀ (call : Call) (b : Block) (w : World S) (op : Op), b.timestamp = call.timestamp →
        VeClaimNFT.exec port call c.chain.world op = .ok w →
        FurnaceAlone c.chain.world.ve op →
        let s := c.chain.world.ve
        let store := c.store.replay b (w.ve.events.drop s.events.length)
        (∀ user fromId intoId, op = .mergeLocksFor user fromId intoId → ∀ a,
          (store.users a).totalLockedClaimWei = (c.store.users a).totalLockedClaimWei) ∧
        ∀ tokenId recipient, op = .furnaceBurnAndWithdraw tokenId recipient →
          (store.users s.furnace).totalLockedClaimWei + (s.locks tokenId).amount =
            (c.store.users s.furnace).totalLockedClaimWei := by
  have hmirror : Mirror False c.store c.chain.world.ve :=
    reachable_mirror (fun _ _ _ _ hfalse ↦ hfalse.elim) h
  have hburned := (VeClaimNFT.reachable_sound (reachable_chain h)).accounted.burned
  have hagg := reachable_exact h
  refine ⟨hagg, fun call b w op hb hexec halone ↦ ?_⟩
  dsimp only
  rw [replay_exec hexec]
  constructor
  · rintro user fromId intoId rfl a
    obtain ⟨-, hmerged⟩ := (VeClaimNFT.exec_effect port call c.chain.world _).of_ok hexec
    exact merge_locked hmirror (hmerged.from_owner ▸ hmerged.user_ne) hmerged.user_ne halone a
  · rintro tokenId recipient rfl
    obtain ⟨-, hcustody, hgone⟩ := (VeClaimNFT.exec_effect port call c.chain.world _).of_ok hexec
    have hmirror' := exec_mirror hmirror hburned hexec (fun hfalse ↦ hfalse.elim) hb
    have hagg' := exec_exact hmirror hagg hburned hexec halone hb
    have howners : w.ve.owners = update c.chain.world.ve.owners tokenId 0 :=
      hgone.ve.keeps (·.owners) fun _ _ ↦ rfl
    rw [locked_eq_amount hmirror hagg hcustody hgone.owner_ne halone,
      locked_eq_zero hmirror' hagg' fun x ↦ ?_, Nat.zero_add]
    rw [howners]
    by_cases hx : x = tokenId
    · rw [hx, update_self, ← hcustody]
      exact hgone.owner_ne.symm
    · rw [update_of_ne hx]
      exact halone x hx

/-! ## Two locks in custody -/

open VeClaimNFT (acceptingPort bundleCall bundleWorld)

/-- The bundle with a market, 6. -/
def tradeCall (delay sender : ℕ) : Call :=
  { bundleCall (delay + 1) sender (Nat.succ_pos delay) with
    codeLength := fun a ↦ if a ≤ 6 then 1 else 0
    staticcallAddress := fun target selector ↦
      match target, selector with
      | 1, .furnace => 3 | 1, .mineMarket => 6
      | 2, .mineCore => 4
      | 3, .ve => 1 | 3, .claim => 2 | 3, .mineCore => 4 | 3, .mineMarket => 6
      | 3, .shareholderRoyalties => 5
      | 4, .ve => 1 | 4, .claim => 2 | 4, .furnace => 3 | 4, .royalties => 5
      | 5, .ve => 1 | 5, .furnace => 3 | 5, .mineMarket => 6
      | 6, .ve => 1 | 6, .claim => 2 | 6, .royalties => 5
      | _, _ => 0 }

/-- Two locks of one user are sold to the Furnace, which burns the first. -/
def custodyCalls : List (Call × Op) :=
  [(tradeCall 99 9, .setFurnace 3), (tradeCall 99 9, .setMineMarket 6),
    (tradeCall 199 3, .createLockFor 7 (1500 * 10 ^ 18) 31536000 true),
    (tradeCall 199 3, .createLockFor 7 (2500 * 10 ^ 18) 31536000 true),
    (tradeCall 299 6, .transferFrom 7 3 1), (tradeCall 299 6, .transferFrom 7 3 2),
    (tradeCall 299 3, .furnaceBurnAndWithdraw 1 7)]

def custodyRun (check : Call → VeState → Op → Bool) (calls : List (Call × Op)) :
    Except Error (Config Unit) :=
  runCalls (fun p ↦ index acceptingPort check p.1 p.2) calls ⟨⟨100, bundleWorld⟩, {}⟩

/-- No lock is merged by the Furnace, and it burns its only lock. -/
def furnaceAlone (s : VeState) : Op → Bool
  | .mergeLocksFor user _ _ => user != s.furnace
  | .unlock _ => false
  | .unlockExpiredForUser _ _ => false
  | .furnaceBurnAndWithdraw tokenId _ => s.furnace != 0 &&
      (List.range s.nextTokenId).all fun x ↦ x == tokenId || s.owners x != s.furnace
  | _ => true

theorem FurnaceAlone.of_check {s : VeState} {op : Op}
    (hfresh : ∀ id, s.nextTokenId ≤ id → s.owners id = 0) (h : furnaceAlone s op = true) :
    FurnaceAlone s op := by
  cases op with
  | mergeLocksFor user fromId intoId => exact bne_iff_ne.mp h
  | unlock tokenId => cases h
  | unlockExpiredForUser user tokenId => cases h
  | furnaceBurnAndWithdraw tokenId recipient =>
      simp only [furnaceAlone, Bool.and_eq_true, bne_iff_ne, List.all_eq_true, List.mem_range,
        Bool.or_eq_true, beq_iff_eq] at h
      intro x hx
      by_cases hlt : x < s.nextTokenId
      · exact (h.2 x hlt).resolve_left hx
      · rw [hfresh x (not_lt.mp hlt)]
        exact h.1.symm
  | _ => trivial

theorem custodyRun_reachable {calls : List (Call × Op)} {c : Config Unit}
    (hrun : custodyRun (fun _ ↦ furnaceAlone) calls = .ok c)
    (hsorted : (100 :: calls.map (·.1.timestamp)).IsChain (· ≤ ·)) :
    (indexing acceptingPort fun _ s op ↦ FurnaceAlone s op).Reachable c :=
  index_reachable bundle_reachable hrun hsorted fun _ _ _ hc hcheck ↦
    .of_check (VeClaimNFT.reachable_sound (reachable_chain hc)).accounted.fresh hcheck

/-- Two of three locks are merged; the third is sold to the Furnace, which burns it. -/
def soldCalls : List (Call × Op) :=
  [(tradeCall 99 9, .setFurnace 3), (tradeCall 99 9, .setMineMarket 6),
    (tradeCall 199 3, .createLockFor 7 (1500 * 10 ^ 18) 31536000 true),
    (tradeCall 199 3, .createLockFor 7 (2500 * 10 ^ 18) 31536000 true),
    (tradeCall 199 3, .createLockFor 7 (3500 * 10 ^ 18) 31536000 true),
    (tradeCall 249 3, .mergeLocksFor 7 3 2), (tradeCall 299 6, .transferFrom 7 3 1),
    (tradeCall 299 3, .furnaceBurnAndWithdraw 1 7)]

theorem aggregates_exact_custody :
    ∃ c, custodyRun (fun _ ↦ furnaceAlone) soldCalls = .ok c ∧
      (c.store.users 7).totalLockedClaimWei = 6000 * 10 ^ 18 ∧
      (c.store.users 3).totalLockedClaimWei = 0 ∧ Aggregated c.store.locks c.store.users := by
  have hok : ((custodyRun (fun _ ↦ furnaceAlone) soldCalls).toOption.any fun c ↦
      (c.store.users 7).totalLockedClaimWei = 6000 * 10 ^ 18 ∧
      (c.store.users 3).totalLockedClaimWei = 0) = true := by
    decide +kernel
  obtain ⟨c, hrun, htotals⟩ := exists_ok_of_any hok
  obtain ⟨hseller, hfurnace⟩ := of_decide_eq_true htotals
  have hreach := custodyRun_reachable hrun (by simp [soldCalls, tradeCall, bundleCall])
  exact ⟨c, hrun, hseller, hfurnace, (aggregates_exact _ c hreach).1⟩

/-- Burning the first of two locks in custody subtracts it twice. -/
theorem not_aggregates_exact :
    ¬ ∀ (port : IShareholderRoyalties Unit) (c : Config Unit),
      (indexing port fun _ _ _ ↦ True).Reachable c → Aggregated c.store.locks c.store.users := by
  intro hall
  have hok : ((custodyRun (fun _ _ _ ↦ true) custodyCalls).toOption.any fun c ↦
      (c.store.users 3).totalLockedClaimWei = 1000 * 10 ^ 18 ∧
      (c.store.locks 2).any fun l ↦ l.owner = 3 ∧ l.amountWei = 2500 * 10 ^ 18) = true := by
    decide +kernel
  obtain ⟨c, hrun, hfacts⟩ := exists_ok_of_any hok
  simp only [decide_eq_true_eq, Option.any_eq_true] at hfacts
  obtain ⟨htotal, l, hl, howner, hamount⟩ := hfacts
  have hreach : (indexing acceptingPort fun _ _ _ ↦ True).Reachable c :=
    index_reachable bundle_reachable hrun (by simp [custodyCalls, tradeCall, bundleCall])
      fun _ _ _ _ _ ↦ trivial
  have hle := (hall _ c hreach).amount_le hl howner
  rw [htotal, hamount] at hle
  exact absurd hle (by decide)

end ClaimRush.Subgraph
