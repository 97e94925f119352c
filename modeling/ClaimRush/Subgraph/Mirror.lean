import ClaimRush.Lib.Driven
import ClaimRush.Subgraph.VeLocks
import ClaimRush.VeClaimNFT.Logs

/-!
# The lock table mirrors the contract

The subgraph replays the log of every operation.  Its lock entities then have
the owner, the amount and the mode of the locks on chain, and the end of every
lock that the log announced an end for.
-/

open Function

namespace ClaimRush.Subgraph

open VeClaimNFT (Call Event IShareholderRoyalties Lock Op VeState World)
open VeClaimNFT.VeState
open Constants (MAX_LOCK_DURATION)

theorem maxLockDurationSeconds_eq : MAX_LOCK_DURATION_SECONDS = MAX_LOCK_DURATION := by
  simp [MAX_LOCK_DURATION_SECONDS, MAX_LOCK_DURATION]

/-! ## Runs -/

/-- The chain and the entities indexed from it. -/
structure Config (S : Type) where
  chain : VeClaimNFT.Config S
  store : Store

/-- The market's events change listings only. -/
def Store.relist (s : Store) (listed activeListings : ℕ → Bool) : Store :=
  { s with
    locks := fun id ↦ (s.locks id).map fun l ↦ { l with listed := listed id }
    activeListings := activeListings }

variable {S : Type}

/-- An operation that `allowed` admits is indexed with its block; other
contracts act in between. -/
inductive Step (port : IShareholderRoyalties S) (allowed : Call → VeState → Op → Prop) :
    Config S → Config S → Prop
  | op {c : Config S} {w : World S} (call : Call) (op : Op) (b : Block)
      (hblock : b.timestamp = call.timestamp) (hnow : c.chain.now ≤ call.timestamp)
      (hallowed : allowed call c.chain.world.ve op)
      (hexec : VeClaimNFT.exec port call c.chain.world op = .ok w) :
      Step port allowed c ⟨⟨call.timestamp, w⟩,
        c.store.replay b (w.ve.events.drop c.chain.world.ve.events.length)⟩
  | outside (c : Config S) (royalties : S) (claim : ClaimToken) :
      Step port allowed c
        ⟨⟨c.chain.now, { ve := c.chain.world.ve, royalties := royalties, claim := claim }⟩, c.store⟩
  | market (c : Config S) (listed activeListings : ℕ → Bool) :
      Step port allowed c ⟨c.chain, c.store.relist listed activeListings⟩

/-- The subgraph indexes the lock contract from its deployment on. -/
def indexing (port : IShareholderRoyalties S) (allowed : Call → VeState → Op → Prop) :
    TransitionSystem (Config S) where
  init c := (VeClaimNFT.system port).init c.chain ∧ c.store = {}
  step := Step port allowed

theorem handle_untracked {b : Block} {s : Store} {e : Event} (he : e.tracked = false) :
    s.handle b e = s := by
  cases e <;> first | rfl | cases he

theorem replay_filter (b : Block) (s : Store) (log : List Event) :
    s.replay b log = s.replay b (log.filter Event.tracked) := by
  induction log generalizing s with
  | nil => rfl
  | cons e log ih =>
      cases he : e.tracked with
      | true =>
          rw [List.filter_cons_of_pos he]
          exact ih _
      | false =>
          rw [List.filter_cons_of_neg (by simp [he])]
          exact (ih _).trans (congrArg (Store.replay b · _) (handle_untracked he))

/-- The events of an operation are those it is known to log. -/
theorem replay_exec {port : IShareholderRoyalties S} {call : Call} {w w' : World S} {op : Op}
    (hexec : VeClaimNFT.exec port call w op = .ok w') (b : Block) (s : Store) :
    s.replay b (w'.ve.events.drop w.ve.events.length) = s.replay b (op.log call w.ve) := by
  rw [replay_filter]
  exact congrArg (s.replay b) ((VeClaimNFT.exec_log port call w op).of_ok hexec).tailLog_eq

/-! ## Entries -/

/-- The entity of a lock on chain; with `exact` also the end of an AutoMax lock. -/
structure Mirrors (exact : Prop) (l : VeLock) (owner : Address) (lock : Lock) : Prop where
  owner : l.owner = owner
  amount : l.amountWei = lock.amount
  autoMax : l.autoMax = lock.autoMax
  lockEnd : exact ∨ lock.autoMax = false → l.lockEnd = lock.lockEnd

/-- There is an entity for each token ever minted, and it mirrors the token. -/
structure Mirror (exact : Prop) (store : Store) (s : VeState) : Prop where
  furnace : store.furnace = s.furnace
  wired : ∀ id, s.owners id ≠ 0 → s.furnace ≠ 0
  minted : ∀ id, (store.locks id).isSome ↔ 0 < id ∧ id < s.nextTokenId
  live : ∀ id, s.owners id ≠ 0 → (store.locks id).isSome
  positive : 0 < s.nextTokenId
  entry : ∀ id l, store.locks id = some l → Mirrors exact l (s.owners id) (s.locks id)

namespace Mirror

variable {exact : Prop} {store store' : Store} {s s' : VeState}

theorem follows (h : Mirror exact store s) (hs : s.Follows s') : Mirror exact store s' := by
  obtain ⟨g, es, rfl⟩ := hs
  exact ⟨h.furnace, h.wired, h.minted, h.live, h.positive, h.entry⟩

theorem relist (h : Mirror exact store s) (listed activeListings : ℕ → Bool) :
    Mirror exact (store.relist listed activeListings) s := by
  refine ⟨h.furnace, h.wired, fun id ↦ ?_, fun id hid ↦ ?_, h.positive, fun id l hl ↦ ?_⟩
  · rw [← h.minted id]
    exact Eq.to_iff (congrArg (· = true) (Option.isSome_map))
  · exact Option.isSome_map.trans (h.live id hid)
  · obtain ⟨l₀, hl₀, rfl⟩ := Option.map_eq_some_iff.mp hl
    obtain ⟨howner, hamount, hauto, hend⟩ := h.entry id l₀ hl₀
    exact ⟨howner, hamount, hauto, hend⟩

/-- The entity of a live token. -/
theorem lookup (h : Mirror exact store s) {id : ℕ} (hid : s.owners id ≠ 0) :
    ∃ l, store.locks id = some l ∧ Mirrors exact l (s.owners id) (s.locks id) := by
  obtain ⟨l, hl⟩ := Option.isSome_iff_exists.mp (h.live id hid)
  exact ⟨l, hl, h.entry id l hl⟩

/-- One token is written on both sides. -/
theorem set (h : Mirror exact store s) {id : ℕ} {l : VeLock} {owner : Address} {lock : Lock}
    (hid : s.owners id ≠ 0) (hfurnace : store'.furnace = store.furnace)
    (hf : s'.furnace = s.furnace) (hnext : s'.nextTokenId = s.nextTokenId)
    (howners : s'.owners = update s.owners id owner) (hlocks : s'.locks = update s.locks id lock)
    (hstore : store'.locks = update store.locks id (some l)) (hl : Mirrors exact l owner lock) :
    Mirror exact store' s' := by
  have hsome := h.live id hid
  have hsome' (x : ℕ) : (store'.locks x).isSome = (store.locks x).isSome := by
    rw [hstore]
    by_cases hx : x = id
    · rw [hx, update_self, hsome]
      rfl
    · rw [update_of_ne hx]
  have hlive (x : ℕ) (hx : s'.owners x ≠ 0) : s.owners x ≠ 0 := by
    rw [howners] at hx
    by_cases hxid : x = id
    · exact hxid ▸ hid
    · rwa [update_of_ne hxid] at hx
  refine ⟨by rw [hfurnace, h.furnace, hf], fun x hx ↦ ?_, fun x ↦ ?_, fun x hx ↦ ?_,
    hnext ▸ h.positive, fun x lx hlx ↦ ?_⟩
  · rw [hf]
    exact h.wired x (hlive x hx)
  · rw [hsome', hnext]
    exact h.minted x
  · rw [hsome']
    exact h.live x (hlive x hx)
  · rw [howners, hlocks]
    rw [hstore] at hlx
    by_cases hx : x = id
    · rw [hx] at hlx ⊢
      rw [update_self] at hlx
      obtain rfl := Option.some.inj hlx
      rwa [update_self, update_self]
    · rw [update_of_ne hx] at hlx
      rw [update_of_ne hx, update_of_ne hx]
      exact h.entry x lx hlx

/-- The lock of a token is rewritten on both sides. -/
theorem write (h : Mirror exact store s) (store' : Store) (lock : Lock) {id : ℕ} {l : VeLock}
    (hid : s.owners id ≠ 0) (hfurnace : store'.furnace = store.furnace)
    (hstore : store'.locks = update store.locks id (some l))
    (hl : Mirrors exact l (s.owners id) lock) : Mirror exact store' (s.setLock id lock) :=
  h.set hid hfurnace rfl rfl (update_eq_self id s.owners).symm rfl hstore hl

/-- A new token gets its entity. -/
theorem create (h : Mirror exact store s) {user : Address} {l : VeLock} {lock : Lock}
    (hwired : s.furnace ≠ 0) (hfurnace : store'.furnace = store.furnace)
    (hstore : store'.locks = update store.locks s.nextTokenId (some l))
    (hl : Mirrors exact l user lock) : Mirror exact store' (s.created user lock) := by
  have hpos := h.positive
  have hsome (x : ℕ) :
      (store'.locks x).isSome ↔ x = s.nextTokenId ∨ (store.locks x).isSome := by
    rw [hstore]
    by_cases hx : x = s.nextTokenId
    · simp [hx]
    · simp [hx]
  refine ⟨hfurnace.trans h.furnace, fun _ _ ↦ hwired, fun x ↦ ?_, fun x hx ↦ ?_, Nat.succ_pos _,
    fun x lx hlx ↦ ?_⟩
  · rw [hsome, h.minted]
    change _ ↔ 0 < x ∧ x < s.nextTokenId + 1
    omega
  · rw [hsome]
    by_cases hxid : x = s.nextTokenId
    · exact .inl hxid
    · exact .inr (h.live x fun hzero ↦ hx ((update_of_ne hxid _ _).trans hzero))
  · change Mirrors exact lx (update s.owners s.nextTokenId user x)
      (update s.locks s.nextTokenId lock x)
    rw [hstore] at hlx
    by_cases hx : x = s.nextTokenId
    · rw [hx] at hlx ⊢
      rw [update_self] at hlx
      obtain rfl := Option.some.inj hlx
      rwa [update_self, update_self]
    · rw [update_of_ne hx] at hlx
      rw [update_of_ne hx, update_of_ne hx]
      exact h.entry x lx hlx

/-- A token is burned on both sides. -/
theorem burn (h : Mirror exact store s) (store' : Store) (l : VeLock) {id : ℕ}
    (hid : s.owners id ≠ 0) (hfurnace : store'.furnace = store.furnace)
    (hstore : store'.locks = update store.locks id (some l)) (hl : Mirrors exact l 0 {}) :
    Mirror exact store' (s.burned id) :=
  h.set hid hfurnace rfl rfl rfl rfl hstore hl

end Mirror

/-! ## Operations -/

section Operations

variable {exact : Prop} {store : Store} {s : VeState} {b : Block} {id : ℕ}

theorem loadOrCreateVeLock_of_some {l : VeLock} (hl : store.locks id = some l) (user : Address) :
    store.loadOrCreateVeLock id user = l := by
  rw [Store.loadOrCreateVeLock, hl, Option.getD_some]

@[simp] theorem deactivateListing_locks (l : VeLock) :
    (store.deactivateListing id l).locks = store.locks := by
  unfold Store.deactivateListing
  split_ifs <;> rfl

@[simp] theorem deactivateListing_furnace (l : VeLock) :
    (store.deactivateListing id l).furnace = store.furnace := by
  unfold Store.deactivateListing
  split_ifs <;> rfl

@[simp] theorem deactivateListing_users (l : VeLock) :
    (store.deactivateListing id l).users = store.users := by
  unfold Store.deactivateListing
  split_ifs <;> rfl

theorem handleTransfer_burn {src : Address} (hsrc : src ≠ 0) :
    store.handleTransfer b src 0 id = store.handleBurn b src id := by
  simp [Store.handleTransfer, hsrc]

theorem canonicalFurnace_of_ne (h : store.furnace ≠ 0) :
    store.canonicalFurnace b = store.furnace := by
  simp [Store.canonicalFurnace, h]

/-- A burn by a user is left to the lifecycle event. -/
theorem handleBurn_user {src : Address} (h : store.furnace ≠ 0) (hsrc : src ≠ store.furnace) :
    store.handleBurn b src id = store := by
  simp [Store.handleBurn, canonicalFurnace_of_ne h, hsrc.symm]

/-- A burn leaves the entity, perhaps without its owner and its amount. -/
theorem handleBurn_entry (b : Block) (src : Address) {l : VeLock} (h : store.furnace ≠ 0)
    (hl : store.locks id = some l) :
    ∃ l', (store.handleBurn b src id).locks = update store.locks id (some l') ∧
      (store.handleBurn b src id).furnace = store.furnace ∧
      l'.autoMax = l.autoMax ∧ l'.lockEnd = l.lockEnd ∧
      (l'.amountWei = l.amountWei ∨ l'.amountWei = 0) := by
  have hself : update store.locks id (some l) = store.locks := by
    rw [← hl, update_eq_self]
  by_cases hsrc : src = store.furnace
  · unfold Store.handleBurn
    rw [canonicalFurnace_of_ne h, if_neg (by simp [h, hsrc])]
    dsimp only
    rw [loadOrCreateVeLock_of_some hl]
    split_ifs with hgone
    · exact ⟨l, rfl, rfl, rfl, rfl, .inl rfl⟩
    · exact ⟨_, update_idem _ _ _, rfl, rfl, rfl, .inr rfl⟩
  · rw [handleBurn_user h hsrc]
    exact ⟨l, hself.symm, rfl, rfl, rfl, .inl rfl⟩

/-- The amount of an entity that a burn may already have cleared. -/
theorem clampedSub_cleared {l l' : VeLock} {amount : ℕ} (hl : l.amountWei = amount)
    (hl' : l'.amountWei = l.amountWei ∨ l'.amountWei = 0) :
    clampedSub l'.amountWei amount = 0 := by
  unfold clampedSub
  split_ifs <;> omega

namespace Mirror

variable (h : Mirror exact store s)
include h

theorem toppedUp {user : Address} {amount : ℕ} (huser : s.owners id = user) (hne : user ≠ 0)
    (hend : exact → (s.locks id).autoMax = true →
      (s.locks id).lockEnd = b.timestamp + MAX_LOCK_DURATION) :
    Mirror exact (store.handleLockAmountIncreased b.timestamp user id amount)
      (s.toppedUp b.timestamp id amount) := by
  have hid : s.owners id ≠ 0 := huser ▸ hne
  obtain ⟨l, hl, hm⟩ := h.lookup hid
  have hwritten := h.write (store.handleLockAmountIncreased b.timestamp user id amount)
    { s.locks id with
      amount := (s.locks id).amount + amount
      lockStart := b.timestamp
      lockEnd := if (s.locks id).autoMax then b.timestamp + MAX_LOCK_DURATION
        else (s.locks id).lockEnd } hid rfl rfl ?_
  · exact ⟨hwritten.furnace, hwritten.wired, hwritten.minted, hwritten.live, hwritten.positive,
      hwritten.entry⟩
  · rw [loadOrCreateVeLock_of_some hl]
    refine ⟨huser.symm, congrArg (· + amount) hm.amount, hm.autoMax, fun hexact ↦ ?_⟩
    dsimp only
    cases hauto : (s.locks id).autoMax with
    | false => exact hm.lockEnd (.inr hauto)
    | true =>
        have hexact : exact := hexact.resolve_right fun hfalse ↦ by
          rw [show (s.locks id).autoMax = false from hfalse] at hauto
          cases hauto
        exact (hm.lockEnd (.inl hexact)).trans (hend hexact hauto)

theorem extended {user : Address} {newEnd lockStart : ℕ} (huser : s.owners id = user)
    (hne : user ≠ 0) :
    Mirror exact (store.handleLockExtended b.timestamp user id newEnd)
      (s.setLock id { s.locks id with lockStart := lockStart, lockEnd := newEnd }) := by
  have hid : s.owners id ≠ 0 := huser ▸ hne
  obtain ⟨l, hl, hm⟩ := h.lookup hid
  refine h.write _ _ hid rfl rfl ?_
  rw [loadOrCreateVeLock_of_some hl]
  exact ⟨huser.symm, hm.amount, hm.autoMax, fun _ ↦ rfl⟩

theorem toggled {user : Address} {enabled : Bool} (hid : s.owners id ≠ 0) :
    Mirror exact (store.handleAutoMaxSet b.timestamp user id enabled)
      (s.setLock id { s.locks id with
        autoMax := enabled
        lockEnd := b.timestamp + MAX_LOCK_DURATION
        lockStart := b.timestamp }) := by
  obtain ⟨l, hl, hm⟩ := h.lookup hid
  refine h.write _ _ hid rfl rfl ?_
  rw [loadOrCreateVeLock_of_some hl]
  exact ⟨hm.owner, hm.amount, rfl, fun _ ↦ congrArg (b.timestamp + ·) maxLockDurationSeconds_eq⟩

theorem withdrawn {user : Address} (huser : s.owners id = user) (hne : user ≠ 0) :
    Mirror exact ((store.handleTransfer b user 0 id).handleLockUnlocked b.timestamp user id
      (s.locks id).amount) (s.withdrawn id) := by
  have hid : s.owners id ≠ 0 := huser ▸ hne
  obtain ⟨l, hl, hm⟩ := h.lookup hid
  have hfurnace : store.furnace ≠ 0 := h.furnace ▸ h.wired id hid
  obtain ⟨l', hlocks, hstored, -, -, hamount⟩ :=
    handleBurn_entry b user hfurnace hl
  rw [handleTransfer_burn hne]
  have hl' : (store.handleBurn b user id).locks id = some l' := by rw [hlocks, update_self]
  have hburned := h.burn ((store.handleBurn b user id).handleLockUnlocked b.timestamp user id
    (s.locks id).amount) (Store.unlockedLock b.timestamp (s.locks id).amount l') hid ?_ ?_ ?_
  · exact ⟨hburned.furnace, hburned.wired, hburned.minted, hburned.live, hburned.positive,
      hburned.entry⟩
  · exact (deactivateListing_furnace _).trans hstored
  · have hload := loadOrCreateVeLock_of_some hl' user
    simp [Store.handleLockUnlocked, Store.saveLock, Store.saveUser, hload, hlocks]
  · have hzero := clampedSub_cleared hm.amount hamount
    simp only [Store.unlockedLock, hzero, if_true]
    exact ⟨rfl, rfl, rfl, fun _ ↦ rfl⟩

theorem merged {user : Address} {fromId intoId : ℕ} (hdistinct : fromId ≠ intoId)
    (hfrom : s.owners fromId = user) (hinto : s.owners intoId = user) (hne : user ≠ 0) :
    Mirror exact ((store.handleTransfer b user 0 fromId).handleLockMerged b.timestamp user fromId
      intoId (s.locks fromId).amount) (s.merged b.timestamp fromId intoId) := by
  have hfromId : s.owners fromId ≠ 0 := hfrom ▸ hne
  have hintoId : s.owners intoId ≠ 0 := hinto ▸ hne
  obtain ⟨f, hf, hmf⟩ := h.lookup hfromId
  obtain ⟨i, hi, hmi⟩ := h.lookup hintoId
  have hfurnace : store.furnace ≠ 0 := h.furnace ▸ h.wired fromId hfromId
  obtain ⟨f', hlocks, hstored, hauto, hend, hamount⟩ :=
    handleBurn_entry b user hfurnace hf
  rw [handleTransfer_burn hne]
  have hf' : (store.handleBurn b user fromId).locks fromId = some f' := by rw [hlocks, update_self]
  have hi' : (store.handleBurn b user fromId).locks intoId = some i := by
    rw [hlocks, update_of_ne hdistinct.symm, hi]
  -- The into lock is written first here; the entities are saved the other way round.
  have hwritten := h.write (store.saveLock intoId (Store.mergedInto b.timestamp user
    (s.locks fromId).amount f' i)) (mergedLock b.timestamp (s.locks fromId) (s.locks intoId))
    hintoId rfl rfl ?_
  · refine hwritten.burn ((store.handleBurn b user fromId).handleLockMerged b.timestamp user fromId
      intoId (s.locks fromId).amount) (Store.mergedFrom b.timestamp (s.locks fromId).amount f')
      hfromId ?_ ?_ ?_
    · exact (deactivateListing_furnace _).trans hstored
    · have hloadFrom := loadOrCreateVeLock_of_some hf' user
      have hloadInto := loadOrCreateVeLock_of_some hi' user
      simp only [Store.handleLockMerged, Store.saveLock, Store.saveUser, hloadFrom, hloadInto,
        deactivateListing_locks, hlocks, update_idem]
      exact update_comm hdistinct _ _ _
    · have hzero := clampedSub_cleared hmf.amount hamount
      simp only [Store.mergedFrom, hzero, if_true]
      exact ⟨rfl, rfl, rfl, fun _ ↦ rfl⟩
  · have hmode : (i.autoMax || f'.autoMax) =
        ((s.locks intoId).autoMax || (s.locks fromId).autoMax) := by
      rw [hauto, hmf.autoMax, hmi.autoMax]
    refine ⟨hinto.symm, congrArg (· + _) hmi.amount, hmode, fun _ ↦ ?_⟩
    simp only [Store.mergedInto, mergedLock, hmode, maxLockDurationSeconds_eq]
    split_ifs with hon hlater
    · rfl
    all_goals
      have hoff := hon
      simp only [Bool.or_eq_true, not_or, Bool.not_eq_true] at hoff
      have hfromEnd := hmf.lockEnd (.inr hoff.2)
      have hintoEnd := hmi.lockEnd (.inr hoff.1)
      omega

theorem handed (hid : s.owners id ≠ 0) :
    Mirror exact (store.handleTransfer b (s.owners id) s.furnace id) (s.handed s.furnace id) := by
  obtain ⟨l, hl, hm⟩ := h.lookup hid
  have hfurnace : s.furnace ≠ 0 := h.wired id hid
  have hlocks : s.locks = update s.locks id (s.locks id) := (update_eq_self _ _).symm
  unfold Store.handleTransfer
  rw [if_neg hid]
  split_ifs with hself
  · refine h.set hid rfl rfl rfl rfl hlocks (l := l) ?_
      ⟨hm.owner.trans hself, hm.amount, hm.autoMax, hm.lockEnd⟩
    rw [← hl, update_eq_self]
  · refine h.set hid (by simp [Store.saveLock, Store.saveUser]) rfl rfl rfl hlocks
      (by simp only [Store.saveLock, Store.saveUser, deactivateListing_locks]; rfl) ?_
    rw [loadOrCreateVeLock_of_some hl]
    exact ⟨rfl, hm.amount, hm.autoMax, hm.lockEnd⟩

/-- A change of the lock that no entity shows. -/
theorem unindexed {lock : Lock} (hid : s.owners id ≠ 0)
    (hamount : lock.amount = (s.locks id).amount)
    (hauto : lock.autoMax = (s.locks id).autoMax) (hend : lock.lockEnd = (s.locks id).lockEnd) :
    Mirror exact store (s.setLock id lock) := by
  obtain ⟨l, hl, hm⟩ := h.lookup hid
  refine h.write _ _ hid rfl (l := l) ?_ ⟨hm.owner, hm.amount.trans hamount.symm,
    hm.autoMax.trans hauto.symm, fun hexact ↦ ?_⟩
  · rw [← hl, update_eq_self]
  · rw [hauto] at hexact
    exact (hm.lockEnd hexact).trans hend.symm

theorem rewired {store' : Store} {mineMarket furnace : Address} {configFrozen : Bool}
    (hstore : store'.locks = store.locks) (hfurnace : store'.furnace = furnace)
    (hne : ∀ id, s.owners id ≠ 0 → furnace ≠ 0) :
    Mirror exact store'
      { s with mineMarket := mineMarket, furnace := furnace, configFrozen := configFrozen } :=
  ⟨hfurnace, hne, hstore ▸ h.minted, hstore ▸ h.live, h.positive, hstore ▸ h.entry⟩

end Mirror

end Operations

/-! ## Every run -/

/-- A top-up rewrites the end of an AutoMax lock, and no event announces it. -/
def EndsLogged (call : Call) (s : VeState) : Op → Prop
  | .addToLockFor _ tokenId _ => (s.locks tokenId).autoMax = true →
      (s.locks tokenId).lockEnd = call.timestamp + MAX_LOCK_DURATION
  | _ => True

variable {exact : Prop} {port : IShareholderRoyalties S} {call : Call} {w w' : World S}

/-- Replaying the log of an operation keeps the mirror. -/
theorem exec_mirror {store : Store} {op : Op} (h : Mirror exact store w.ve)
    (hburned : ∀ id, w.ve.owners id = 0 → w.ve.locks id = {})
    (hexec : VeClaimNFT.exec port call w op = .ok w') (hends : exact → EndsLogged call w.ve op)
    {b : Block} (hb : b.timestamp = call.timestamp) :
    Mirror exact (store.replay b (op.log call w.ve)) w'.ve := by
  have heffect := (VeClaimNFT.exec_effect port call w op).of_ok hexec
  have hfurnace := (VeClaimNFT.exec_furnace port call w op).of_ok hexec
  obtain ⟨now, isLocal, tryFurnace⟩ := b
  obtain rfl : now = call.timestamp := hb
  cases op with
  | createLockFor user amount duration autoMax =>
      have hwired := (VeClaimNFT.createLockFor_wired port call w _ _ _ _).of_ok hexec
      refine Mirror.follows ?_ heffect.2.ve
      exact h.create hwired rfl rfl ⟨rfl, rfl, rfl, fun _ ↦ rfl⟩
  | addToLockFor user tokenId amount =>
      refine Mirror.follows ?_ heffect.2.ve
      exact h.toppedUp heffect.2.owner heffect.2.user_ne hends
  | extendLockToFor user tokenId newEnd =>
      refine Mirror.follows ?_ heffect.2.ve
      exact h.extended heffect.2.owner heffect.2.user_ne
  | mergeLocksFor user fromTokenId intoTokenId =>
      refine Mirror.follows ?_ heffect.2.ve
      exact h.merged heffect.2.distinct heffect.2.from_owner heffect.2.into_owner
        heffect.2.user_ne
  | setAutoMax tokenId enabled =>
      have hlive : w.ve.owners tokenId ≠ 0 := fun hzero ↦ by
        have hmutable := heffect.mutable.unexpired
        rw [hburned tokenId hzero] at hmutable
        exact absurd (hmutable rfl) (Nat.not_lt_zero _)
      have hve := heffect.ve
      refine Mirror.follows ?_ hve
      rw [Op.log, VeClaimNFT.toggledLock]
      split_ifs
      · exact h.unindexed hlive rfl rfl rfl
      · exact h.toggled hlive
  | unlock tokenId =>
      refine Mirror.follows ?_ heffect.ve
      exact h.withdrawn heffect.owner (heffect.owner ▸ heffect.owner_ne)
  | unlockExpiredForUser user tokenId =>
      refine Mirror.follows ?_ heffect.ve
      exact h.withdrawn heffect.owner (heffect.owner ▸ heffect.owner_ne)
  | furnaceBurnAndWithdraw tokenId recipient =>
      refine Mirror.follows ?_ heffect.2.2.ve
      exact h.withdrawn heffect.2.1 (heffect.2.1 ▸ heffect.2.2.owner_ne)
  | transferFrom src dst tokenId | safeTransferFrom src dst tokenId =>
      refine Mirror.follows ?_ heffect.ve
      obtain rfl := heffect.owner
      obtain rfl := heffect.dst_eq
      exact h.handed heffect.src_ne
  | setListed tokenId listed =>
      refine Mirror.follows ?_ heffect.ve
      exact h.unindexed heffect.owner_ne rfl rfl rfl
  | checkpointGlobalState => exact h.follows heffect.ve
  | setMineMarket mineMarket | freezeConfig =>
      refine Mirror.follows ?_ heffect.ve
      rw [hfurnace]
      exact h.rewired rfl h.furnace h.wired
  | setFurnace furnace =>
      have hne := (VeClaimNFT.setFurnace_ne port call w furnace).of_ok hexec
      refine Mirror.follows ?_ heffect.ve
      rw [hfurnace]
      exact h.rewired rfl rfl fun _ _ ↦ hne

variable {allowed : Call → VeState → Op → Prop} {c : Config S}

theorem reachable_chain (h : (indexing port allowed).Reachable c) :
    (VeClaimNFT.system port).Reachable c.chain := by
  refine h.invariant (I := fun c ↦ (VeClaimNFT.system port).Reachable c.chain)
    (fun _ hinit ↦ .init (And.left hinit)) ?_
  rintro c c' - hc hstep
  cases hstep with
  | op call op b hblock hnow hallowed hexec => exact hc.step (.op call op hnow hexec)
  | outside royalties claim => exact hc.step (.outside _ royalties claim)
  | market listed activeListings => exact hc

/-- In every run the entities mirror the chain; they also have the ends of AutoMax
locks when every operation logs the ends it writes. -/
theorem reachable_mirror
    (hends : ∀ call s op, allowed call s op → exact → EndsLogged call s op)
    (h : (indexing port allowed).Reachable c) : Mirror exact c.store c.chain.world.ve := by
  refine h.invariant (I := fun c ↦ Mirror exact c.store c.chain.world.ve) ?_ ?_
  · rintro ⟨⟨now, w⟩, store⟩ ⟨⟨deployment, -, self, claimToken, owner, hve⟩, rfl⟩
    change Mirror exact {} w.ve
    rw [hve]
    refine ⟨rfl, fun _ hne ↦ absurd rfl hne, fun id ↦ ?_, fun _ hne ↦ absurd rfl hne, Nat.one_pos,
      fun _ _ hl ↦ nomatch hl⟩
    change false = true ↔ 0 < id ∧ id < 1
    rw [iff_false_left Bool.false_ne_true]
    omega
  · rintro c c' hc hmirror hstep
    cases hstep with
    | op call op b hblock hnow hallowed hexec =>
        have hburned := (VeClaimNFT.reachable_sound (reachable_chain hc)).accounted.burned
        rw [replay_exec hexec]
        exact exec_mirror hmirror hburned hexec (hends call _ op hallowed) hblock
    | outside royalties claim => exact hmirror
    | market listed activeListings => exact hmirror.relist listed activeListings

/-- The entities agree with the locks on chain. -/
structure LockTable (store : Store) (s : VeState) : Prop where
  live : ∀ id, s.IsLive id → ∃ l, store.locks id = some l ∧
    l.amountWei = (s.locks id).amount ∧ l.autoMax = (s.locks id).autoMax ∧
    l.lockEnd = (s.locks id).lockEnd ∧ l.owner = s.owners id
  burned : ∀ id, 0 < id → id < s.nextTokenId → ¬ s.IsLive id →
    ∃ l, store.locks id = some l ∧ l.amountWei = 0 ∧ l.owner = 0

/-- The lock table mirrors the contract in every run in which the end of a topped-up
AutoMax lock is the end it has already. -/
theorem lock_table_mirrors (port : IShareholderRoyalties S) (c : Config S)
    (h : (indexing port EndsLogged).Reachable c) : LockTable c.store c.chain.world.ve := by
  have hmirror : Mirror True c.store c.chain.world.ve :=
    reachable_mirror (fun _ _ _ hallowed _ ↦ hallowed) h
  have hburned := (VeClaimNFT.reachable_sound (reachable_chain h)).accounted.burned
  constructor
  · intro id hid
    obtain ⟨l, hl, hm⟩ := hmirror.lookup hid
    exact ⟨l, hl, hm.amount, hm.autoMax, hm.lockEnd (.inl trivial), hm.owner⟩
  · intro id hpos hlt hid
    obtain ⟨l, hl⟩ := Option.isSome_iff_exists.mp ((hmirror.minted id).mpr ⟨hpos, hlt⟩)
    have hm := hmirror.entry id l hl
    have hzero := not_not.mp hid
    rw [hburned id hzero, hzero] at hm
    exact ⟨l, hl, hm.amount, hm.owner⟩

/-! ## A refreshed lock and a topped-up one -/

/-- One indexed operation, if it passes `check`. -/
def index (port : IShareholderRoyalties S) (check : Call → VeState → Op → Bool) (call : Call)
    (op : Op) (c : Config S) : Except Error (Config S) := do
  revertIf (check call c.chain.world.ve op = false) .NotAuthorized
  let w ← VeClaimNFT.exec port call c.chain.world op
  return ⟨⟨call.timestamp, w⟩, c.store.replay ⟨call.timestamp, false, none⟩
    (w.ve.events.drop c.chain.world.ve.events.length)⟩

/-- Checked operations in successive blocks. -/
theorem index_reachable {check : Call → VeState → Op → Bool} {calls : List (Call × Op)}
    {c' : Config S} (hc : (indexing port allowed).Reachable c)
    (hrun : runCalls (fun p ↦ index port check p.1 p.2) calls c = .ok c')
    (hsorted : (c.chain.now :: calls.map (·.1.timestamp)).IsChain (· ≤ ·))
    (hallowed : ∀ c call op, (indexing port allowed).Reachable c →
      check call c.chain.world.ve op = true → allowed call c.chain.world.ve op) :
    (indexing port allowed).Reachable c' := by
  induction calls generalizing c with
  | nil =>
      obtain rfl := Except.ok.inj hrun
      exact hc
  | cons p calls ih =>
      obtain ⟨c₁, hindex, hrest⟩ := bind_eq_ok_iff.mp hrun
      obtain ⟨hle, hsorted⟩ := List.isChain_cons_cons.mp hsorted
      obtain ⟨_, hcheck, hindex⟩ := bind_eq_ok_iff.mp hindex
      obtain ⟨w, hexec, hindex⟩ := bind_eq_ok_iff.mp hindex
      obtain rfl := Except.ok.inj hindex
      have hchecked := Bool.not_eq_false _ ▸ revertIf_eq_ok.mp hcheck
      have hstep := hc.step (.op p.1 p.2 ⟨p.1.timestamp, false, none⟩ rfl hle
        (hallowed c p.1 p.2 hc hchecked) hexec)
      exact ih hstep hrest hsorted

open VeClaimNFT (acceptingPort bundleCall bundleWorld)

theorem bundle_reachable : (indexing acceptingPort allowed).Reachable ⟨⟨100, bundleWorld⟩, {}⟩ :=
  .init ⟨⟨bundleCall 100 9 (Nat.succ_pos _), rfl, 1, 2, 9, rfl⟩, rfl⟩

/-- A call into the bundle `delay` seconds after the first one. -/
def indexedCall (delay sender : ℕ) : Call := bundleCall (100 + delay) sender (Nat.add_pos_left
  (Nat.lt_of_lt_of_le Nat.zero_lt_one (Nat.le_add_left 1 99)) delay)

/-- An AutoMax lock, and then `rest`. -/
def autoMaxCalls (rest : List (Call × Op)) : List (Call × Op) :=
  [(indexedCall 0 9, .setFurnace 3),
    (indexedCall 100 3, .createLockFor 7 (1500 * 10 ^ 18) 31536000 true)] ++ rest

def autoMaxRun (check : Call → VeState → Op → Bool) (rest : List (Call × Op)) :
    Except Error (Config Unit) :=
  runCalls (fun p ↦ index acceptingPort check p.1 p.2) (autoMaxCalls rest) ⟨⟨100, bundleWorld⟩, {}⟩

/-- A top-up of an AutoMax lock ends it where it ends already. -/
def endsLogged (call : Call) (s : VeState) : Op → Bool
  | .addToLockFor _ tokenId _ => !(s.locks tokenId).autoMax ||
      (s.locks tokenId).lockEnd == call.timestamp + MAX_LOCK_DURATION
  | _ => true

theorem EndsLogged.of_check {s : VeState} {op : Op} (h : endsLogged call s op = true) :
    EndsLogged call s op := by
  cases op with
  | addToLockFor user tokenId amount =>
      intro hautoMax
      simpa [endsLogged, hautoMax] using h
  | _ => trivial

/-- The lock is topped up in the second of its creation, and refreshed later. -/
def refreshedCalls : List (Call × Op) :=
  [(indexedCall 100 3, .addToLockFor 7 1 (10 * 10 ^ 18)),
    (indexedCall 200 3, .extendLockToFor 7 1 0)]

theorem lock_table_mirrors_refreshed :
    ∃ c, autoMaxRun endsLogged refreshedCalls = .ok c ∧
      (c.chain.world.ve.locks 1).amount = 1510 * 10 ^ 18 ∧
      (c.chain.world.ve.locks 1).lockEnd = 300 + 31536000 ∧
      LockTable c.store c.chain.world.ve := by
  have hok : ((autoMaxRun endsLogged refreshedCalls).toOption.any fun c ↦
      (c.chain.world.ve.locks 1).amount = 1510 * 10 ^ 18 ∧
      (c.chain.world.ve.locks 1).lockEnd = 300 + 31536000) = true := by
    decide +kernel
  obtain ⟨c, hrun, hlock⟩ := exists_ok_of_any hok
  obtain ⟨hamount, hend⟩ := of_decide_eq_true hlock
  have hreach : (indexing acceptingPort EndsLogged).Reachable c :=
    index_reachable bundle_reachable hrun
      (by simp [autoMaxCalls, refreshedCalls, indexedCall, bundleCall])
      fun _ _ _ _ hcheck ↦ .of_check hcheck
  exact ⟨c, hrun, hamount, hend, lock_table_mirrors _ c hreach⟩

/-- Without the condition the table misses the end that a top-up writes. -/
theorem not_lock_table_mirrors :
    ¬ ∀ (port : IShareholderRoyalties Unit) (c : Config Unit),
      (indexing port fun _ _ _ ↦ True).Reachable c → LockTable c.store c.chain.world.ve := by
  intro hall
  have hok : ((autoMaxRun (fun _ _ _ ↦ true)
      [(indexedCall 200 3, .addToLockFor 7 1 (10 * 10 ^ 18))]).toOption.any fun c ↦
      c.chain.world.ve.owners 1 = 7 ∧ (c.chain.world.ve.locks 1).lockEnd = 300 + 31536000 ∧
      (c.store.locks 1).any fun l ↦ l.lockEnd = 200 + 31536000) = true := by
    decide +kernel
  obtain ⟨c, hrun, hfacts⟩ := exists_ok_of_any hok
  obtain ⟨howner, hend, hentity⟩ := of_decide_eq_true hfacts
  have hreach : (indexing acceptingPort fun _ _ _ ↦ True).Reachable c :=
    index_reachable bundle_reachable hrun (by simp [autoMaxCalls, indexedCall, bundleCall])
      fun _ _ _ _ _ ↦ trivial
  obtain ⟨l, hl, -, -, hmirror, -⟩ := (hall _ c hreach).live 1 (by simp [IsLive, howner])
  rw [hl, Option.any_some, decide_eq_true_eq, hmirror, hend] at hentity
  omega

end ClaimRush.Subgraph
