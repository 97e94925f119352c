import ClaimRush.Furnace.Payers
import ClaimRush.MineCore.Turns

/-!
# The books of the king stream

The CLAIM of the finalized reigns is paid out liquid, locked for a recipient or
owed to it.  The books hold these amounts; every part of a call either spares
them or makes one entry.
-/

open Function

namespace ClaimRush.MineCore

open Constants

/-! ## Books -/

/-- CLAIM of the finalized reigns, and what became of it. -/
structure KingBooks where
  /-- CLAIM mined in finalized reigns. -/
  mined : ℕ
  /-- CLAIM paid out liquid. -/
  liquid : ℕ
  /-- CLAIM that entered a lock, by recipient. -/
  locked : List (Address × ℕ)
  pending : Address → ℕ
  totalPending : ℕ

/-- The CLAIM of a reign that an event finalizes. -/
def Event.mined : Event → ℕ
  | .ReignFinalized _ _ _ _ claimMined _ => claimMined
  | _ => 0

/-- The CLAIM that an event pays out liquid. -/
def Event.liquid : Event → ℕ
  | .KingClaimLiquidPaid _ _ amount _ => amount
  | _ => 0

def CoreState.kingBooks (s : CoreState) : KingBooks where
  mined := (s.events.map Event.mined).sum
  liquid := (s.events.map Event.liquid).sum
  locked := s.ghost.locked
  pending := s.kings.pendingKingClaim
  totalPending := s.kings.totalPendingKingClaim

namespace KingBooks

variable (b : KingBooks)

/-- A reign is finalized. -/
def mine (amount : ℕ) : KingBooks := { b with mined := b.mined + amount }

def payLiquid (amount : ℕ) : KingBooks := { b with liquid := b.liquid + amount }

/-- CLAIM enters a lock of `recipient`. -/
def lock (recipient : Address) (amount : ℕ) : KingBooks :=
  { b with locked := b.locked ++ [(recipient, amount)] }

/-- CLAIM is credited to `recipient`. -/
def credit (recipient : Address) (amount : ℕ) : KingBooks :=
  { b with
    pending := update b.pending recipient (b.pending recipient + amount)
    totalPending := b.totalPending + amount }

/-- The credit of `user` enters a lock of `dst`. -/
def withdraw (user dst : Address) : KingBooks :=
  { b with
    locked := b.locked ++ [(dst, b.pending user)]
    pending := update b.pending user 0
    totalPending := b.totalPending - b.pending user }

@[simp] theorem payLiquid_zero : b.payLiquid 0 = b := rfl

end KingBooks

theorem emit_kingBooks (s : CoreState) (e : Event) (hmined : e.mined = 0) (hliquid : e.liquid = 0) :
    (s.emit e).kingBooks = s.kingBooks := by
  simp only [CoreState.kingBooks, CoreState.emit, List.map_append, List.sum_append, List.map_cons,
    List.map_nil, List.sum_cons, List.sum_nil, hmined, hliquid, Nat.add_zero]

variable {S : Type}

/-! ## Who is paid -/

/-- Neither the contract, nor its Furnace, nor a contract that the Furnace pays. -/
structure World.Bystander (w : World S) (account : Address) : Prop where
  core : account ≠ w.core.wiring.self
  wired : account ≠ w.core.wiring.furnace
  outside : w.furnace.Outside account

/-- The contracts are at the same addresses. -/
structure SameParties (w w' : World S) : Prop where
  self : w'.core.wiring.self = w.core.wiring.self
  wired : w'.core.wiring.furnace = w.core.wiring.furnace
  furnace : w'.furnace.furnace.self = w.furnace.furnace.self
  vault : w'.furnace.furnace.lpRewardsVault = w.furnace.furnace.lpRewardsVault
  lock : w'.ve.self = w.ve.self

/-- The bystanders gain the CLAIM `paid`, each his own part. -/
def PaysBystanders (paid : Address → ℕ) (w w' : World S) : Prop :=
  ∀ account, w.Bystander account →
    w'.claim.balanceOf account = w.claim.balanceOf account + paid account

section PaysBystanders

variable {w w' w'' : World S} {paid paid' : Address → ℕ}

theorem SameParties.trans (h : SameParties w w') (h' : SameParties w' w'') : SameParties w w'' :=
  ⟨h'.self.trans h.self, h'.wired.trans h.wired, h'.furnace.trans h.furnace,
    h'.vault.trans h.vault, h'.lock.trans h.lock⟩

/-- The calls of the game change neither its wiring nor the parties of the Furnace. -/
theorem SameParties.of_wiring (hwiring : w'.core.wiring = w.core.wiring)
    (hfurnace : w'.furnace = w.furnace) : SameParties w w' := by
  obtain ⟨core, balance, furnace⟩ := w'
  obtain rfl : furnace = w.furnace := hfurnace
  exact ⟨congrArg Wiring.self hwiring, congrArg Wiring.furnace hwiring, rfl, rfl, rfl⟩

theorem SameParties.bystander (h : SameParties w w') {account : Address}
    (hby : w.Bystander account) : w'.Bystander account :=
  ⟨h.self ▸ hby.core, h.wired ▸ hby.wired,
    ⟨h.furnace ▸ hby.outside.furnace, h.vault ▸ hby.outside.vault, h.lock ▸ hby.outside.ve⟩⟩

theorem PaysBystanders.trans (hpaid : PaysBystanders paid w w') (hsame : SameParties w w')
    (hpaid' : PaysBystanders paid' w' w'') : PaysBystanders (paid + paid') w w'' := by
  intro account hby
  rw [hpaid' account (hsame.bystander hby), hpaid account hby, Nat.add_assoc]
  rfl

theorem PaysBystanders.none (hclaim : w'.claim.balanceOf = w.claim.balanceOf) :
    PaysBystanders 0 w w' :=
  fun account _ ↦ congrFun hclaim account

end PaysBystanders

/-! ## What spares the king stream -/

/-- The selected locks and the locks themselves are as before, no CLAIM has left the
contract, and the bystanders are paid `paid`. -/
structure Kept (paid : Address → ℕ) (w w' : World S) : Prop extends SameParties w w' where
  config : w'.core.kings.kingAutoLockConfig = w.core.kings.kingAutoLockConfig
  ve : w.ve.Follows w'.ve
  claim : w.claim.Spares w.core.wiring.self w'.claim
  paid : PaysBystanders paid w w'

/-- The books are as before, too, and nobody is paid. -/
structure Spared (w w' : World S) : Prop extends Kept 0 w w' where
  books : w'.core.kingBooks = w.core.kingBooks

namespace Kept

variable {w w' w'' : World S} {paid paid' : Address → ℕ}

theorem trans (h : Kept paid w w') (h' : Kept paid' w' w'') : Kept (paid + paid') w w'' :=
  ⟨h.toSameParties.trans h'.toSameParties, h'.config.trans h.config, h.ve.trans h'.ve,
    h.claim.after (h.self ▸ h'.claim), h.paid.trans h.toSameParties h'.paid⟩

theorem after (h : Kept paid w w') (h' : Kept 0 w' w'') : Kept paid w w'' := by
  have hboth := h.trans h'
  rwa [add_zero] at hboth

theorem held (h : Kept paid w w') : w.claimBalance ≤ w'.claimBalance := by
  unfold World.claimBalance
  rw [h.self]
  exact h.claim.balance

/-- The contract and the Furnace are still two accounts. -/
theorem distinct (h : Kept paid w w') (hne : w.core.wiring.self ≠ w.furnace.furnace.self) :
    w'.core.wiring.self ≠ w'.furnace.furnace.self := by
  rw [h.self, h.furnace]
  exact hne

/-- Only storage of the game that the king stream does not use. -/
theorem of_core (hwiring : w'.core.wiring = w.core.wiring)
    (hconfig : w'.core.kings.kingAutoLockConfig = w.core.kings.kingAutoLockConfig)
    (hfurnace : w'.furnace = w.furnace) : Kept 0 w w' := by
  have hsame : SameParties w w' := .of_wiring hwiring hfurnace
  obtain ⟨core, balance, furnace⟩ := w'
  obtain rfl : furnace = w.furnace := hfurnace
  exact ⟨hsame, hconfig, .refl _, .refl _, .none rfl⟩

end Kept

namespace Spared

variable {w w' w'' : World S}

theorem refl (w : World S) : Spared w w := ⟨.of_core rfl rfl rfl, rfl⟩

theorem trans (h : Spared w w') (h' : Spared w' w'') : Spared w w'' :=
  ⟨h.toKept.after h'.toKept, h'.books.trans h.books⟩

theorem of_core (hwiring : w'.core.wiring = w.core.wiring)
    (hbooks : w'.core.kingBooks = w.core.kingBooks)
    (hconfig : w'.core.kings.kingAutoLockConfig = w.core.kings.kingAutoLockConfig)
    (hfurnace : w'.furnace = w.furnace) : Spared w w' :=
  ⟨.of_core hwiring hconfig hfurnace, hbooks⟩

theorem emit (h : Spared w w') (e : Event) (hmined : e.mined = 0) (hliquid : e.liquid = 0) :
    Spared w (w'.emit e) :=
  h.trans (.of_core rfl (emit_kingBooks w'.core e hmined hliquid) rfl rfl)

end Spared

variable (port : VeClaimNFT.IShareholderRoyalties S) (call : Call) (w : World S)

/-- A mint pays its receiver, and nobody else. -/
theorem mintKingClaim_kept (dst : Address) (amount : ℕ) :
    Returns (fun w' : World S ↦ Kept (Pi.single dst amount) w w' ∧
        w'.core.kingBooks = w.core.kingBooks ∧
        w'.claim.balanceOf dst = w.claim.balanceOf dst + amount) (mintKingClaim w dst amount) := by
  unfold mintKingClaim
  refine Returns.seq fun claim hclaim ↦ ?_
  have hminted := ClaimToken.mint_balanceOf hclaim
  refine ⟨⟨⟨rfl, rfl, rfl, rfl, rfl⟩, rfl, .refl _, ClaimToken.mint_spares _ hclaim, ?_⟩, rfl, ?_⟩
  · intro account _
    rw [Pi.single_apply]
    exact hminted account
  · refine (hminted dst).trans ?_
    rw [if_pos rfl]

/-- The contract mints for itself. -/
theorem mintKingClaim_spared (amount : ℕ) :
    Returns (fun w' : World S ↦ Spared w w' ∧ w'.claim.balanceOf w.core.wiring.self =
        w.claim.balanceOf w.core.wiring.self + amount)
      (mintKingClaim w w.core.wiring.self amount) := by
  refine (mintKingClaim_kept w w.core.wiring.self amount).weaken ?_
  rintro w' ⟨h, hbooks, hheld⟩
  refine ⟨⟨⟨h.toSameParties, h.config, h.ve, h.claim, fun account hby ↦ ?_⟩, hbooks⟩, hheld⟩
  have hpaid := h.paid account hby
  rwa [Pi.single_eq_of_ne hby.core] at hpaid

/-- The destination of a settlement reads the locks and the selection only. -/
theorem chooseDestination_kept {paid : Address → ℕ} {w w' : World S} (h : Kept paid w w')
    (recipient : Address) :
    chooseDestination call w' recipient = chooseDestination call w recipient := by
  obtain ⟨g, es, hve⟩ := h.ve
  unfold chooseDestination
  rw [h.config, hve]
  rfl

/-! ## Routing -/

theorem deposits_follows {s s₁ s' s'' : VeClaimNFT.VeState} {user amount targetTokenId tokenId : ℕ}
    (h : Furnace.Deposits user amount targetTokenId tokenId s₁ s') (hs : s.Follows s₁)
    (hs' : s'.Follows s'') : Furnace.Deposits user amount targetTokenId tokenId s s'' := by
  obtain ⟨g, es, rfl⟩ := hs
  obtain ⟨g', es', rfl⟩ := hs'
  refine ⟨fun htarget ↦ ?_, fun htarget ↦ ?_⟩
  · obtain ⟨hid, htops⟩ := h.existing htarget
    exact ⟨hid, htops.owners, htops.nextTokenId, htops.others, htops.amount⟩
  · obtain ⟨hid, hmints⟩ := h.fresh htarget
    exact ⟨hid, hmints.owners, hmints.nextTokenId, hmints.others, hmints.amount⟩

/-- A routing attempt locks the amount, or changes at most the pin. -/
structure Routes (recipient : Address) (amount : ℕ) (w w' : World S) (routed : Routed) : Prop
    extends SameParties w w' where
  paid : PaysBystanders 0 w w'
  failed : ∀ reason, routed = .failed reason → w'.core.kingBooks = w.core.kingBooks ∧
    w'.ve = w.ve ∧ w.claim.Spares w.core.wiring.self w'.claim
  locked : ∀ tokenId, routed = .locked tokenId →
    w'.core.kingBooks = w.core.kingBooks.lock recipient amount ∧
    w.claim.Spends w.core.wiring.self amount w'.claim ∧
    Furnace.Deposits recipient amount (chooseDestination call w recipient).1.tokenId tokenId
      w.ve w'.ve

theorem ite_pin_books (c : Prop) [Decidable c] (recipient : Address) (tokenId : ℕ) :
    (if c then pin w recipient tokenId else w).core.kingBooks = w.core.kingBooks ∧
    (if c then pin w recipient tokenId else w).core.wiring = w.core.wiring ∧
    (if c then pin w recipient tokenId else w).furnace = w.furnace := by
  split_ifs <;> exact ⟨rfl, rfl, rfl⟩

/-- The approval that remains is withdrawn. -/
theorem enterFurnace_deposits (hne : w.core.wiring.self ≠ w.furnace.furnace.self)
    (recipient : Address) (amount minVeOut : ℕ) (destination : AutoLockDestination) :
    Returns (fun r ↦ Furnace.Takes w.core.wiring.self amount w.furnace
          (r.1.withClaim (r.1.claim.approve w.core.wiring.self w.core.wiring.furnace 0)) ∧
        Furnace.Deposits recipient amount destination.tokenId r.2.tokenIdUsed w.ve r.1.ve)
      (enterFurnace port call w recipient amount minVeOut destination) := by
  unfold enterFurnace
  dsimp only
  generalize (if minVeOut = 0 then 1 else minVeOut) = floor
  have hentered := Furnace.enterWithClaimFor_deposits port (call.byCore w.core)
    (w.withClaim (w.claim.approve w.core.wiring.self w.core.wiring.furnace amount)).furnace hne
    recipient amount ⟨destination.tokenId, destination.duration, destination.createAutoMax, floor⟩
  refine hentered.weaken ?_
  rintro r ⟨htakes, hlocks⟩
  refine ⟨⟨htakes.self, htakes.vault, htakes.lock, ClaimToken.approved_spends htakes.claim, ?_⟩,
    hlocks⟩
  exact fun other hout hother ↦ htakes.outside other ⟨hout.furnace, hout.vault, hout.ve⟩ hother

theorem RouteGas.tryEnter_eq_ok {gas : RouteGas}
    {entry : Except Error (Furnace.World S × Furnace.Entered)}
    {entered : Furnace.World S × Furnace.Entered} (h : gas.tryEnter entry = .ok entered) :
    entry = .ok entered := by
  unfold RouteGas.tryEnter at h
  cases entry with
  | ok entered' =>
      dsimp only at h
      split_ifs at h
      exact congrArg Except.ok (Except.ok.inj h)
  | error e => cases h

theorem entryLocked_locks (recipient : Address) (amount : ℕ) (destination : AutoLockDestination)
    (f : Furnace.World S) (tokenId : ℕ) :
    let w' := entryLocked w recipient amount destination f tokenId
    w'.core.wiring = w.core.wiring ∧ w'.core.kingBooks = w.core.kingBooks.lock recipient amount ∧
      w'.furnace =
        f.withClaim (f.claim.approve w.core.wiring.self w.core.wiring.furnace 0) := by
  unfold entryLocked
  dsimp only
  split_ifs <;> exact ⟨rfl, rfl, rfl⟩

theorem entryFailed_keeps (recipient : Address) (destination : AutoLockDestination) :
    let w' := entryFailed w recipient destination
    w'.core.wiring = w.core.wiring ∧ w'.core.kingBooks = w.core.kingBooks ∧
      w'.furnace = w.furnace.withClaim
        (w.claim.approve w.core.wiring.self w.core.wiring.furnace 0) := by
  unfold entryFailed
  dsimp only
  split_ifs <;> exact ⟨rfl, rfl, rfl⟩

theorem routeClaimToLock_routes (hne : w.core.wiring.self ≠ w.furnace.furnace.self)
    (gas : RouteGas) (recipient : Address) (amount : ℕ) :
    Routes call recipient amount w (routeClaimToLock port call w gas recipient amount).1
      (routeClaimToLock port call w gas recipient amount).2 := by
  unfold routeClaimToLock
  dsimp only
  generalize hchosen : (if (chooseDestination call w recipient).2 = true then pin w recipient 0
    else w) = chosen
  obtain ⟨hbooks, hwiring, hfurnace⟩ := ite_pin_books w
    ((chooseDestination call w recipient).2 = true) recipient 0
  rw [hchosen] at hbooks hwiring hfurnace
  have hfail {w' : World S} {reason : Option Error} (claim : ClaimToken)
      (hwiring' : w'.core.wiring = w.core.wiring)
      (hbooks' : w'.core.kingBooks = w.core.kingBooks)
      (hfurnace' : w'.furnace = w.furnace.withClaim claim)
      (hclaim : w.claim.Spares w.core.wiring.self claim)
      (hbalances : claim.balanceOf = w.claim.balanceOf) :
      Routes call recipient amount w w' (.failed reason) := by
    obtain ⟨core, balance, furnace⟩ := w'
    obtain rfl : furnace = w.furnace.withClaim claim := hfurnace'
    exact ⟨⟨congrArg Wiring.self hwiring', congrArg Wiring.furnace hwiring', rfl, rfl, rfl⟩,
      .none hbalances, fun _ _ ↦ ⟨hbooks', rfl, hclaim⟩, fun _ h ↦ by cases h⟩
  have hclaim : chosen.claim = w.claim := congrArg Furnace.World.claim hfurnace
  have hve : chosen.ve = w.ve := congrArg Furnace.World.ve hfurnace
  split
  · exact hfail w.claim rfl rfl rfl (.refl _) rfl
  split
  · exact hfail w.claim rfl rfl rfl (.refl _) rfl
  split
  · exact hfail w.claim hwiring hbooks hfurnace (.refl _) rfl
  split
  case h_1 f entered hentered =>
    have hne' : chosen.core.wiring.self ≠ chosen.furnace.furnace.self := by
      rw [hwiring, hfurnace]
      exact hne
    obtain ⟨htakes, hlocks⟩ := Returns.iff_forall.mp
      (enterFurnace_deposits port call chosen hne' recipient amount _ _) _
      (RouteGas.tryEnter_eq_ok hentered)
    obtain ⟨hwiring', hbooks', hfurnace'⟩ := entryLocked_locks chosen recipient amount
      (chooseDestination call w recipient).1 f entered.tokenIdUsed
    generalize entryLocked chosen recipient amount (chooseDestination call w recipient).1 f
      entered.tokenIdUsed = w' at hwiring' hbooks' hfurnace' ⊢
    have hve' : w'.ve = f.ve := (congrArg Furnace.World.ve hfurnace').trans rfl
    rw [← hfurnace', hfurnace, hwiring] at htakes
    rw [hwiring] at hwiring'
    refine ⟨⟨congrArg Wiring.self hwiring', congrArg Wiring.furnace hwiring', htakes.self,
      htakes.vault, htakes.lock⟩, ?_, fun _ hfailed ↦ Routed.noConfusion hfailed,
      fun tokenId htoken ↦ ?_⟩
    · exact fun account hby ↦ htakes.outside account hby.outside hby.core
    · obtain rfl := Routed.locked.inj htoken
      rw [hve', hbooks', hbooks, ← hve]
      exact ⟨rfl, htakes.claim, hlocks⟩
  case h_2 reason hentered =>
    obtain ⟨hwiring', hbooks', hfurnace'⟩ := entryFailed_keeps chosen recipient
      (chooseDestination call w recipient).1
    rw [hfurnace] at hfurnace'
    refine hfail _ (hwiring'.trans hwiring) (hbooks'.trans hbooks) hfurnace' ?_ ?_
    · rw [hclaim, hwiring]
      exact ClaimToken.approve_zero_spares _
    · rw [hclaim]
      rfl

/-! ## Settlement -/

/-- How the slice `amount` of `recipient` is settled, with the books `b` before it. -/
inductive SliceTurn (b : KingBooks) (recipient : Address) (amount : ℕ) (w w' : World S) : Prop
  | empty (hzero : amount = 0) (hbooks : w'.core.kingBooks = b) (hve : w.ve.Follows w'.ve)
  | locked (tokenId : ℕ) (hbooks : w'.core.kingBooks = b.lock recipient amount)
      (hlocks : Furnace.Deposits recipient amount (chooseDestination call w recipient).1.tokenId
        tokenId w.ve w'.ve)
  | credited (hbooks : w'.core.kingBooks = b.credit recipient amount)
      (hheld : w.claimBalance + amount ≤ w'.claimBalance) (hve : w.ve.Follows w'.ve)

/-- A settled slice takes no CLAIM from the contract, and the bystanders are paid `paid`. -/
structure SliceSettled (b : KingBooks) (recipient : Address) (amount : ℕ) (paid : Address → ℕ)
    (w w' : World S) : Prop extends SameParties w w' where
  claim : w.claim.Spares w.core.wiring.self w'.claim
  paid : PaysBystanders paid w w'
  turn : SliceTurn call b recipient amount w w'

section SliceSettled

variable {call} {b : KingBooks} {recipient : Address} {amount : ℕ} {paid paid' : Address → ℕ}
  {w w₁ w' : World S}

theorem SliceSettled.before (h' : SliceSettled call b recipient amount paid' w₁ w')
    (h : Kept paid w w₁) : SliceSettled call b recipient amount (paid + paid') w w' := by
  refine ⟨h.toSameParties.trans h'.toSameParties, h.claim.after (h.self ▸ h'.claim),
    h.paid.trans h.toSameParties h'.paid, ?_⟩
  cases h'.turn with
  | empty hzero hbooks hve => exact .empty hzero hbooks (h.ve.trans hve)
  | locked tokenId hbooks hlocks =>
      rw [chooseDestination_kept call h] at hlocks
      exact .locked tokenId hbooks (deposits_follows hlocks h.ve (.refl _))
  | credited hbooks hheld hve =>
      exact .credited hbooks ((Nat.add_le_add_right h.held _).trans hheld) (h.ve.trans hve)

/-- What comes before pays nobody. -/
theorem SliceSettled.kept (h' : SliceSettled call b recipient amount paid w₁ w') (h : Kept 0 w w₁) :
    SliceSettled call b recipient amount paid w w' := by
  have hboth := h'.before h
  rwa [zero_add] at hboth

theorem SliceSettled.after (h : SliceSettled call b recipient amount paid w w₁)
    (h' : Spared w₁ w') : SliceSettled call b recipient amount paid w w' := by
  have hpaid := h.paid.trans h.toSameParties h'.paid
  rw [add_zero] at hpaid
  refine ⟨h.toSameParties.trans h'.toSameParties, h.claim.after (h.self ▸ h'.claim), hpaid, ?_⟩
  cases h.turn with
  | empty hzero hbooks hve => exact .empty hzero (h'.books.trans hbooks) (hve.trans h'.ve)
  | locked tokenId hbooks hlocks =>
      exact .locked tokenId (h'.books.trans hbooks) (deposits_follows hlocks (.refl _) h'.ve)
  | credited hbooks hheld hve =>
      exact .credited (h'.books.trans hbooks) (hheld.trans h'.held) (hve.trans h'.ve)

end SliceSettled

theorem creditKingClaim_credits (recipient : Address) (amount : ℕ) :
    Returns (fun w' : World S ↦ w'.core.wiring = w.core.wiring ∧ w'.furnace = w.furnace ∧
        w'.core.kingBooks = w.core.kingBooks.credit recipient amount)
      (creditKingClaim w recipient amount) := by
  unfold creditKingClaim
  refine Returns.seq fun pending hpending ↦ Returns.seq fun total htotal ↦ ?_
  obtain ⟨-, rfl⟩ := uint256_eq_ok.mp hpending
  obtain ⟨-, rfl⟩ := uint256_eq_ok.mp htotal
  refine ⟨rfl, rfl, ?_⟩
  exact emit_kingBooks _ (.KingClaimCredited recipient amount) rfl rfl

/-- The contract holds `amount` more, which no book mentions yet. -/
structure Holds (amount : ℕ) (w w' : World S) : Prop extends SameParties w w' where
  books : w'.core.kingBooks = w.core.kingBooks
  ve : w.ve.Follows w'.ve
  claim : w.claim.Spares w.core.wiring.self w'.claim
  paid : PaysBystanders 0 w w'
  held : w.claim.balanceOf w.core.wiring.self + amount ≤ w'.claim.balanceOf w.core.wiring.self

/-- CLAIM that the contract holds is credited. -/
theorem Holds.credit {recipient : Address} {amount : ℕ} {w w₁ w' : World S} (h : Holds amount w w₁)
    (hwiring : w'.core.wiring = w₁.core.wiring) (hfurnace : w'.furnace = w₁.furnace)
    (hbooks : w'.core.kingBooks = w₁.core.kingBooks.credit recipient amount) :
    SliceSettled call w.core.kingBooks recipient amount 0 w w' := by
  have hclaim : w'.claim = w₁.claim := congrArg Furnace.World.claim hfurnace
  have hve : w'.ve = w₁.ve := congrArg Furnace.World.ve hfurnace
  have hsame : SameParties w₁ w' := .of_wiring hwiring hfurnace
  refine ⟨h.toSameParties.trans hsame, ?_, fun account hby ↦ ?_, .credited ?_ ?_ ?_⟩
  · rw [hclaim]
    exact h.claim
  · rw [hclaim]
    exact h.paid account hby
  · rw [hbooks, h.books]
  · unfold World.claimBalance
    rw [hclaim, hwiring, h.self]
    exact h.held
  · rw [hve]
    exact h.ve

theorem settleLockedSlice_settled (hne : w.core.wiring.self ≠ w.furnace.furnace.self)
    (gas : SettleGas) (reignId : ℕ) (recipient : Address) (lockAmount : ℕ) :
    Returns (SliceSettled call w.core.kingBooks recipient lockAmount 0 w)
      (settleLockedSlice port call w gas reignId recipient lockAmount) := by
  unfold settleLockedSlice
  refine Returns.ite (fun _ ↦ ?_) fun _ ↦ ?_
  · unfold creditPendingKingClaim
    rw [bind_assoc]
    refine Outcome.bind (mintKingClaim_spared w _) ?_
    rintro w₁ ⟨h₁, hheld⟩
    refine Outcome.bind (creditKingClaim_credits w₁ recipient lockAmount) ?_
    rintro w₂ ⟨hwiring, hfurnace, hbooks⟩
    have hholds : Holds lockAmount w w₁ :=
      ⟨h₁.toSameParties, h₁.books, h₁.ve, h₁.claim, h₁.paid, hheld.ge⟩
    refine hholds.credit call hwiring hfurnace ?_
    exact (emit_kingBooks _ (.KingAutoLockSkipped _ _ _ _) rfl rfl).trans hbooks
  · refine Outcome.bind (mintKingClaim_spared w _) ?_
    rintro w₁ ⟨h₁, hheld⟩
    have hrouted := routeClaimToLock_routes port call w₁ (h₁.distinct hne) gas.toRouteGas
      recipient lockAmount
    dsimp only
    generalize (routeClaimToLock port call w₁ gas.toRouteGas recipient lockAmount) = p at hrouted ⊢
    obtain ⟨w₂, routed⟩ := p
    dsimp only at hrouted ⊢
    have hsame := h₁.toSameParties.trans hrouted.toSameParties
    have hpaid := h₁.paid.trans h₁.toSameParties hrouted.paid
    rw [add_zero] at hpaid
    cases routed with
    | locked tokenId =>
        obtain ⟨hbooks, hspends, hlocks⟩ := hrouted.locked tokenId rfl
        rw [h₁.self] at hspends
        rw [h₁.books] at hbooks
        rw [chooseDestination_kept call h₁.toKept] at hlocks
        have hclaim : w.claim.Spares w.core.wiring.self w₂.claim := by
          refine ⟨?_, fun spender ↦ (hspends.allowance spender).trans (h₁.claim.allowance spender)⟩
          have hle := hspends.balance
          rw [hheld] at hle
          exact Nat.le_of_add_le_add_right hle
        have hlocked : SliceSettled call w.core.kingBooks recipient lockAmount 0 w w₂ :=
          ⟨hsame, hclaim, hpaid,
            .locked tokenId hbooks (deposits_follows hlocks h₁.ve (.refl _))⟩
        exact hlocked.after ((Spared.refl w₂).emit _ rfl rfl)
    | failed reason =>
        obtain ⟨hbooks, hve, hspares⟩ := hrouted.failed reason rfl
        refine Outcome.bind (creditKingClaim_credits w₂ recipient lockAmount) ?_
        rintro w₃ ⟨hwiring, hfurnace, hbooks'⟩
        rw [h₁.self] at hspares
        have hholds : Holds lockAmount w w₂ :=
          ⟨hsame, hbooks.trans h₁.books, hve ▸ h₁.ve, h₁.claim.after hspares, hpaid,
            hheld.ge.trans hspares.balance⟩
        refine hholds.credit call hwiring hfurnace ?_
        exact (emit_kingBooks _ (.KingAutoLockFailed _ _ _ _) rfl rfl).trans hbooks'

/-! ## A finalized reign -/

/-- The liquid slice of a reign. -/
def liquidSlice (mined bps : ℕ) : ℕ := mined * bps / 10000

theorem liquidSlice_le (mined : ℕ) {bps : ℕ} (hbps : bps ≤ KING_LIQUID_SHARE_MAX_BPS) :
    liquidSlice mined bps ≤ mined := by
  have hle : bps ≤ 10000 := hbps.trans (by decide +kernel)
  refine Nat.div_le_of_le_mul ?_
  rw [Nat.mul_comm]
  exact Nat.mul_le_mul_right _ hle

/-- The liquid slice is minted once, to the recipient. -/
theorem payLiquidSlice_kept (reignId : ℕ) (recipient : Address) (liquidAmount liquidBps : ℕ) :
    Returns (fun w' : World S ↦ Kept (Pi.single recipient liquidAmount) w w' ∧
        w'.core.kingBooks = w.core.kingBooks.payLiquid liquidAmount)
      (payLiquidSlice w reignId recipient liquidAmount liquidBps) := by
  unfold payLiquidSlice
  refine Returns.ite (fun _ ↦ ?_) fun hzero ↦ ?_
  · refine Outcome.bind (mintKingClaim_kept w recipient liquidAmount) ?_
    rintro w₁ ⟨h₁, hbooks, -⟩
    refine ⟨h₁.after (.of_core rfl rfl rfl), ?_⟩
    rw [← hbooks]
    simp only [World.emit, CoreState.kingBooks, CoreState.emit, List.map_append, List.sum_append,
      List.map_cons, List.map_nil, List.sum_cons, List.sum_nil, Event.mined, Event.liquid,
      Nat.add_zero, KingBooks.payLiquid]
  · rw [not_not.mp hzero, Pi.single_zero]
    exact ⟨(Spared.refl w).toKept, rfl⟩

/-- The CLAIM of a reign is paid liquid up to the share of its king, and the rest is
settled. -/
theorem settlePrevKingClaim_settled (hne : w.core.wiring.self ≠ w.furnace.furnace.self)
    (gas : SettleGas) (reignId : ℕ) (king recipient : Address) (claimAmount : ℕ) :
    let liquid := liquidSlice claimAmount (w.core.window.kingLiquidBps king)
    Returns (SliceSettled call (w.core.kingBooks.payLiquid liquid) recipient
        (claimAmount - liquid) (Pi.single recipient liquid) w)
      (settlePrevKingClaim port call w gas reignId king recipient claimAmount) := by
  unfold settlePrevKingClaim
  dsimp only
  refine Returns.ite (fun hzero ↦ ?_) fun _ ↦ ?_
  · subst hzero
    have hnone : liquidSlice 0 (w.core.window.kingLiquidBps king) = 0 := by
      unfold liquidSlice
      rw [Nat.zero_mul, Nat.zero_div]
    rw [hnone, Pi.single_zero]
    exact ⟨.of_wiring rfl rfl, .refl _, .none rfl, .empty (Nat.zero_sub _) rfl (.refl _)⟩
  refine Returns.seq fun product hproduct ↦ ?_
  obtain ⟨-, rfl⟩ := uint256_eq_ok.mp hproduct
  refine Outcome.bind (payLiquidSlice_kept w reignId recipient _ _) ?_
  rintro w₁ ⟨h₁, hbooks⟩
  refine Returns.ite (fun hzero ↦ ?_) fun _ ↦ ?_
  · exact ⟨h₁.toSameParties, h₁.claim, h₁.paid, .empty hzero hbooks h₁.ve⟩
  · refine (settleLockedSlice_settled port call w₁ (h₁.distinct hne) gas _ _ _).weaken ?_
    intro w₂ h₂
    rw [hbooks] at h₂
    have hboth := h₂.before h₁
    rwa [add_zero] at hboth

end ClaimRush.MineCore
