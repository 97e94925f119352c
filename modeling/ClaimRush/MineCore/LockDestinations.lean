import ClaimRush.MineCore.KingConservation

/-!
# The lock that a settlement goes into

The CLAIM of a king goes into the lock that it selected, or else into its pinned
lock.  While the pin can be used, this holds exactly when no lock is selected or
the selected one can be used; then settlements and withdrawals mint no lock.
-/

open Function Relation

namespace ClaimRush.MineCore

open Constants

/-! ## Locks that can be used -/

section Usable

variable (nowTs : ℕ) (ve : VeClaimNFT.VeState) (king : Address) (tokenId : ℕ)

/-- The end that `getLockInfo` reports. -/
def effectiveEnd : ℕ := (ve.getLockInfo nowTs tokenId).2.1

/-- A lock of `king` that is not listed or expired, and is AutoMax or locked for the
full duration of a forced lock. -/
structure UsableLock : Prop where
  id_ne : tokenId ≠ 0
  minted : ve.owners tokenId ≠ 0
  owner : ve.owners tokenId = king
  unlisted : (ve.locks tokenId).listed = false
  unexpired : nowTs < effectiveEnd nowTs ve tokenId
  full : (ve.locks tokenId).autoMax = true ∨
    KING_FORCE_LOCK_MIN_DURATION ≤ effectiveEnd nowTs ve tokenId - nowTs

theorem usableLock_iff : UsableLock nowTs ve king tokenId ↔
    tokenId ≠ 0 ∧ ve.owners tokenId ≠ 0 ∧ ve.owners tokenId = king ∧
      (ve.locks tokenId).listed = false ∧ nowTs < effectiveEnd nowTs ve tokenId ∧
      ((ve.locks tokenId).autoMax = true ∨
        KING_FORCE_LOCK_MIN_DURATION ≤ effectiveEnd nowTs ve tokenId - nowTs) := by
  constructor
  · exact fun h ↦ ⟨h.id_ne, h.minted, h.owner, h.unlisted, h.unexpired, h.full⟩
  · rintro ⟨hid, hminted, howner, hunlisted, hunexpired, hfull⟩
    exact ⟨hid, hminted, howner, hunlisted, hunexpired, hfull⟩

instance : Decidable (UsableLock nowTs ve king tokenId) :=
  decidable_of_iff _ (usableLock_iff nowTs ve king tokenId).symm

variable {nowTs ve king tokenId}

theorem resolve_usable (h : UsableLock nowTs ve king tokenId) :
    ∃ destination, resolveKingAutoLockDestination nowTs ve king tokenId 0 false = .ok destination ∧
      destination.tokenId = tokenId := by
  unfold resolveKingAutoLockDestination resolveExistingToken
  rw [if_pos h.id_ne, if_neg h.minted, if_neg (not_not.mpr h.owner)]
  have hlisted : (ve.getLockInfo nowTs tokenId).2.2.2 = false := h.unlisted
  have hend : ¬ (ve.getLockInfo nowTs tokenId).2.1 ≤ nowTs := Nat.not_le.mpr h.unexpired
  have hfull : (ve.getLockInfo nowTs tokenId).2.2.1 = true ∨
      ¬ (ve.getLockInfo nowTs tokenId).2.1 - nowTs < KING_FORCE_LOCK_MIN_DURATION :=
    h.full.imp id Nat.not_lt.mpr
  generalize ve.getLockInfo nowTs tokenId = info at hlisted hend hfull ⊢
  obtain ⟨amount, lockEnd, autoMax, listed⟩ := info
  dsimp only at hlisted hend hfull ⊢
  rw [hlisted, if_neg Bool.false_ne_true, if_neg hend]
  cases autoMax with
  | true => exact ⟨_, rfl, rfl⟩
  | false =>
      rw [if_neg Bool.false_ne_true, if_neg (hfull.resolve_left Bool.false_ne_true)]
      exact ⟨_, rfl, rfl⟩

theorem resolve_unusable (hid : tokenId ≠ 0) (h : ¬ UsableLock nowTs ve king tokenId) :
    ∃ reason, resolveKingAutoLockDestination nowTs ve king tokenId 0 false = .error reason := by
  unfold resolveKingAutoLockDestination resolveExistingToken
  rw [if_pos hid]
  by_cases hminted : ve.owners tokenId = 0
  · exact ⟨_, if_pos hminted⟩
  rw [if_neg hminted]
  by_cases howner : ve.owners tokenId = king
  swap
  · exact ⟨_, if_pos howner⟩
  rw [if_neg (not_not.mpr howner)]
  have hcase : (ve.getLockInfo nowTs tokenId).2.2.2 = false →
      ¬ (ve.getLockInfo nowTs tokenId).2.1 ≤ nowTs →
      (ve.getLockInfo nowTs tokenId).2.2.1 = false ∧
        (ve.getLockInfo nowTs tokenId).2.1 - nowTs < KING_FORCE_LOCK_MIN_DURATION := by
    intro hunlisted hunexpired
    by_contra hfull
    refine h ⟨hid, hminted, howner, hunlisted, Nat.not_le.mp hunexpired, ?_⟩
    change (ve.getLockInfo nowTs tokenId).2.2.1 = true ∨
      _ ≤ (ve.getLockInfo nowTs tokenId).2.1 - nowTs
    by_cases hauto : (ve.getLockInfo nowTs tokenId).2.2.1 = true
    · exact .inl hauto
    · exact .inr (Nat.not_lt.mp fun hlt ↦ hfull ⟨Bool.eq_false_iff.mpr hauto, hlt⟩)
  generalize ve.getLockInfo nowTs tokenId = info at hcase ⊢
  obtain ⟨amount, lockEnd, autoMax, listed⟩ := info
  dsimp only at hcase ⊢
  cases listed with
  | true => exact ⟨_, rfl⟩
  | false =>
      rw [if_neg Bool.false_ne_true]
      by_cases hend : lockEnd ≤ nowTs
      · exact ⟨_, if_pos hend⟩
      · obtain ⟨rfl, hlt⟩ := hcase rfl hend
        rw [if_neg hend, if_neg Bool.false_ne_true, if_pos hlt]
        exact ⟨_, rfl⟩

end Usable

variable {S : Type}

/-! ## The choice of a lock -/

section Choice

variable (call : Call) (w : World S) (recipient : Address)

/-- The selected lock can be used. -/
def TargetUsable : Prop :=
  UsableLock call.timestamp w.ve recipient (w.core.kings.kingAutoLockConfig recipient).targetTokenId

/-- The pinned lock can be used. -/
def PinUsable : Prop :=
  UsableLock call.timestamp w.ve recipient (w.core.kings.kingAutoLockConfig recipient).pinnedTokenId

instance : Decidable (TargetUsable call w recipient) :=
  inferInstanceAs (Decidable (UsableLock ..))

instance : Decidable (PinUsable call w recipient) :=
  inferInstanceAs (Decidable (UsableLock ..))

/-- The selected lock if it can be used, else the pinned one. -/
def preferredLock : ℕ :=
  if TargetUsable call w recipient then (w.core.kings.kingAutoLockConfig recipient).targetTokenId
  else (w.core.kings.kingAutoLockConfig recipient).pinnedTokenId

/-- No lock is selected, or the selected lock can be used. -/
def TargetSound : Prop :=
  (w.core.kings.kingAutoLockConfig recipient).targetTokenId = 0 ∨ TargetUsable call w recipient

variable {call w recipient}

theorem chooseDestination_target (h : TargetUsable call w recipient) :
    (chooseDestination call w recipient).1.tokenId =
      (w.core.kings.kingAutoLockConfig recipient).targetTokenId := by
  obtain ⟨destination, hresolved, hid⟩ := resolve_usable h
  unfold chooseDestination
  dsimp only
  rw [if_pos h.id_ne, if_pos h.id_ne, hresolved]
  exact hid

theorem chooseDestination_pinned
    (htarget : (w.core.kings.kingAutoLockConfig recipient).targetTokenId = 0)
    (h : PinUsable call w recipient) :
    (chooseDestination call w recipient).1.tokenId =
      (w.core.kings.kingAutoLockConfig recipient).pinnedTokenId := by
  obtain ⟨destination, hresolved, hid⟩ := resolve_usable h
  unfold chooseDestination
  dsimp only
  rw [if_neg (not_not.mpr htarget), if_pos h.id_ne, hresolved]
  exact hid

/-- A selected lock that cannot be used is replaced by a new lock, pinned or not. -/
theorem chooseDestination_fresh
    (htarget : (w.core.kings.kingAutoLockConfig recipient).targetTokenId ≠ 0)
    (h : ¬ TargetUsable call w recipient) : (chooseDestination call w recipient).1.tokenId = 0 := by
  obtain ⟨reason, hresolved⟩ := resolve_unusable htarget h
  unfold chooseDestination
  dsimp only
  rw [if_pos htarget, if_pos htarget, hresolved]

/-- The documented order of the locks is kept exactly when the selection is sound. -/
theorem chooseDestination_iff (hpin : PinUsable call w recipient) :
    (chooseDestination call w recipient).1.tokenId = preferredLock call w recipient ↔
      TargetSound call w recipient := by
  unfold preferredLock TargetSound
  by_cases husable : TargetUsable call w recipient
  · rw [if_pos husable]
    exact iff_of_true (chooseDestination_target husable) (.inr husable)
  rw [if_neg husable]
  by_cases htarget : (w.core.kings.kingAutoLockConfig recipient).targetTokenId = 0
  · exact iff_of_true (chooseDestination_pinned htarget hpin) (.inl htarget)
  · rw [chooseDestination_fresh htarget husable]
    exact iff_of_false hpin.id_ne.symm (not_or.mpr ⟨htarget, husable⟩)

theorem preferredLock_ne (hpin : PinUsable call w recipient) :
    preferredLock call w recipient ≠ 0 := by
  unfold preferredLock
  split
  case isTrue h => exact h.id_ne
  case isFalse => exact hpin.id_ne

end Choice

/-! ## Routed CLAIM -/

/-- The account into whose locks a call may route CLAIM. -/
def KingCall.routesTo : KingCall → Option Address
  | .takeover settlesTo => settlesTo
  | .withdrawal dst => some dst
  | _ => none

/-- CLAIM of `recipient` goes into the lock `tokenId`, or into none; no lock is minted. -/
def GoesInto (recipient : Address) (tokenId : ℕ) (w w' : World S) : Prop :=
  w'.ve.nextTokenId = w.ve.nextTokenId ∧ w'.ve.owners = w.ve.owners ∧
    (w'.core.ghost.locked = w.core.ghost.locked ∧ w'.ve.locks = w.ve.locks ∨
      ∃ amount, w'.core.ghost.locked = w.core.ghost.locked ++ [(recipient, amount)] ∧
        Furnace.TopsUp tokenId amount w.ve w'.ve)

/-- Locks that a call mints. -/
def mintedLocks (w w' : World S) : ℕ := w'.ve.nextTokenId - w.ve.nextTokenId

section Routed

variable {call : Call} {w w' : World S} {recipient : Address}

theorem GoesInto.of_follows {tokenId : ℕ} (hlocked : w'.core.ghost.locked = w.core.ghost.locked)
    (hve : w.ve.Follows w'.ve) : GoesInto recipient tokenId w w' :=
  ⟨hve.keeps VeClaimNFT.VeState.nextTokenId fun _ _ ↦ rfl,
    hve.keeps VeClaimNFT.VeState.owners fun _ _ ↦ rfl,
    .inl ⟨hlocked, hve.keeps VeClaimNFT.VeState.locks fun _ _ ↦ rfl⟩⟩

/-- What a deposit into the chosen lock does, if that lock is one that exists. -/
theorem goesInto_deposits {amount tokenId : ℕ}
    (hlocked : w'.core.ghost.locked = w.core.ghost.locked ++ [(recipient, amount)])
    (hlocks : Furnace.Deposits recipient amount (chooseDestination call w recipient).1.tokenId
      tokenId w.ve w'.ve) (hne : (chooseDestination call w recipient).1.tokenId ≠ 0) :
    GoesInto recipient (chooseDestination call w recipient).1.tokenId w w' := by
  obtain ⟨-, htops⟩ := hlocks.existing hne
  exact ⟨htops.nextTokenId, htops.owners, .inr ⟨amount, hlocked, htops⟩⟩

theorem mintedLocks_deposits {amount targetTokenId tokenId : ℕ}
    (hlocks : Furnace.Deposits recipient amount targetTokenId tokenId w.ve w'.ve) :
    mintedLocks w w' ≤ 1 := by
  unfold mintedLocks
  by_cases htarget : targetTokenId = 0
  · rw [(hlocks.fresh htarget).2.nextTokenId]
    omega
  · rw [(hlocks.existing htarget).2.nextTokenId]
    omega

theorem mintedLocks_follows (hve : w.ve.Follows w'.ve) : mintedLocks w w' = 0 := by
  unfold mintedLocks
  rw [hve.keeps VeClaimNFT.VeState.nextTokenId fun _ _ ↦ rfl]
  exact Nat.sub_self _

theorem KingEffect.distinct {k : KingCall} (h : KingEffect call w w' k)
    (hne : w.core.wiring.self ≠ w.furnace.furnace.self) :
    w'.core.wiring.self ≠ w'.furnace.furnace.self := by
  have hend (hself : w'.core.wiring.self = w.core.wiring.self)
      (hfurnace : w'.furnace.furnace.self = w.furnace.furnace.self) :
      w'.core.wiring.self ≠ w'.furnace.furnace.self := by
    rw [hself, hfurnace]
    exact hne
  cases k with
  | takeover settlesTo =>
      cases settlesTo with
      | none => exact hend (Untouched.self h) (Untouched.furnace h)
      | some recipient =>
          obtain ⟨mined, bps, -, hsettled⟩ := ReignSettled.split h
          exact hend hsettled.self hsettled.furnace
  | withdrawal dst =>
      rcases h with ⟨-, h⟩ | h
      · exact hend h.self h.furnace
      · exact hend h.self h.furnace
  | rescue =>
      rcases h with h | h
      · exact hend h.self h.furnace
      · exact hend h.self h.furnace
  | other => exact hend (Untouched.self h) (Untouched.furnace h)

/-- Where a call routes CLAIM to `recipient`, and that it mints at most one lock. -/
theorem KingEffect.routes {k : KingCall} (h : KingEffect call w w' k)
    (hto : k.routesTo = some recipient) :
    mintedLocks w w' ≤ 1 ∧ ((chooseDestination call w recipient).1.tokenId ≠ 0 →
      GoesInto recipient (chooseDestination call w recipient).1.tokenId w w') := by
  have hidle {b : KingBooks} (hlocked : b.locked = w.core.ghost.locked)
      (hbooks : w'.core.kingBooks = b) (hve : w.ve.Follows w'.ve) :
      mintedLocks w w' ≤ 1 ∧ ((chooseDestination call w recipient).1.tokenId ≠ 0 →
        GoesInto recipient (chooseDestination call w recipient).1.tokenId w w') :=
    ⟨(mintedLocks_follows hve).trans_le (Nat.zero_le _), fun _ ↦
      .of_follows ((congrArg KingBooks.locked hbooks).trans hlocked) hve⟩
  cases k with
  | takeover settlesTo =>
      obtain rfl : settlesTo = some recipient := hto
      obtain ⟨mined, bps, -, hsettled⟩ := ReignSettled.split h
      cases hsettled.turn with
      | empty hzero hbooks hve => exact hidle rfl hbooks hve
      | locked tokenId hbooks hlocks =>
          exact ⟨mintedLocks_deposits hlocks,
            goesInto_deposits (congrArg KingBooks.locked hbooks) hlocks⟩
      | credited hbooks hheld hve => exact hidle rfl hbooks hve
  | withdrawal dst =>
      obtain rfl : dst = recipient := Option.some.inj hto
      rcases h with ⟨-, h⟩ | h
      · exact hidle rfl h.books h.ve
      · obtain ⟨tokenId, hlocks⟩ := h.locks
        exact ⟨mintedLocks_deposits hlocks,
          goesInto_deposits (congrArg KingBooks.locked h.books) hlocks⟩
  | rescue => cases hto
  | other => cases hto

end Routed

/-! ## Runs -/

variable (port : VeClaimNFT.IShareholderRoyalties S) (recipient : Address)

/-- A call that may route CLAIM, with the worlds around it. -/
structure Routing (S : Type) where
  call : Call
  before : World S
  after : World S

/-- A state of a run, with the routings to one recipient that lead to it, the newest
first. -/
structure Recorded (S : Type) where
  config : Config S
  routings : List (Routing S)

/-- The routings after a call. -/
def Recorded.extend (o : Recorded S) (call : Call) (op : Op) (w : World S) : List (Routing S) :=
  if (op.kingCall call o.config.world.core).routesTo = some recipient then
    ⟨call, o.config.world, w⟩ :: o.routings
  else o.routings

inductive Record : Recorded S → Recorded S → Prop
  | op {o : Recorded S} {w : World S} (call : Call) (op : Op) (hnow : o.config.now ≤ call.timestamp)
      (hexec : exec port call o.config.world op = .ok w) :
      Record o ⟨⟨call.timestamp, w⟩, o.extend recipient call op w⟩
  | outside {o : Recorded S} {now : ℕ} (received : ℕ) (furnace : Furnace.World S)
      (hnow : o.config.now ≤ now)
      (hself : furnace.furnace.self ≠ o.config.world.core.wiring.self) :
      Record o ⟨⟨now, ⟨o.config.world.core, o.config.world.balance + received, furnace⟩⟩,
        o.routings⟩

/-- The runs of the game contract, in which everybody else acts at will, with the
routings to `recipient`. -/
def recorded : TransitionSystem (Recorded S) where
  init o := Deployed o.config.world o.config.now ∧
    o.config.world.core.wiring.self ≠ o.config.world.furnace.furnace.self ∧ o.routings = []
  step := Record port recipient

namespace Routing

variable (r : Routing S)

/-- The pinned lock can be used, and no lock is selected or the selected one can be used. -/
def Sound : Prop := PinUsable r.call r.before recipient ∧ TargetSound r.call r.before recipient

/-- The CLAIM goes where the selection and the pin direct it, and no lock is minted. -/
def Preferred : Prop :=
  GoesInto recipient (preferredLock r.call r.before recipient) r.before r.after

end Routing

/-- Locks that the routings mint. -/
def mintedByRoutings (routings : List (Routing S)) : ℕ :=
  (routings.map fun r ↦ mintedLocks r.before r.after).sum

/-- What every routing does. -/
structure Routing.Routed (r : Routing S) : Prop where
  minted : mintedLocks r.before r.after ≤ 1
  goesInto : (chooseDestination r.call r.before recipient).1.tokenId ≠ 0 →
    GoesInto recipient (chooseDestination r.call r.before recipient).1.tokenId r.before r.after

variable {recipient}

theorem Routing.Routed.preferred {r : Routing S} (h : r.Routed recipient)
    (hsound : r.Sound recipient) : r.Preferred recipient := by
  have hchosen := (chooseDestination_iff hsound.1).mpr hsound.2
  unfold Routing.Preferred
  rw [← hchosen]
  refine h.goesInto ?_
  rw [hchosen]
  exact preferredLock_ne hsound.1

theorem Routing.Preferred.mints_none {r : Routing S} (h : r.Preferred recipient) :
    mintedLocks r.before r.after = 0 := by
  unfold mintedLocks
  rw [h.1]
  exact Nat.sub_self _

/-- From the first minted lock on, sound routings mint no other. -/
theorem minted_le_one {routings : List (Routing S)} (hrouted : ∀ r ∈ routings, r.Routed recipient)
    (hsound : ∀ newer r older, routings = newer ++ r :: older → mintedByRoutings older ≠ 0 →
      r.Sound recipient) : mintedByRoutings routings ≤ 1 := by
  induction routings with
  | nil => exact Nat.zero_le 1
  | cons r older ih =>
      have hle : mintedByRoutings older ≤ 1 := by
        refine ih (fun r' hr' ↦ hrouted r' (List.mem_cons_of_mem r hr')) ?_
        intro newer r' older' hsplit
        exact hsound (r :: newer) r' older' (congrArg (List.cons r) hsplit)
      have hr := hrouted r List.mem_cons_self
      have hsum : mintedByRoutings (r :: older) =
          mintedLocks r.before r.after + mintedByRoutings older := by
        rw [mintedByRoutings, List.map_cons, List.sum_cons]
        rfl
      by_cases hnone : mintedByRoutings older = 0
      · have := hr.minted
        omega
      · have := (hr.preferred (hsound [] r older rfl hnone)).mints_none
        omega

variable {port}

theorem reachable_routed {o : Recorded S} (ho : (recorded port recipient).Reachable o) :
    o.config.world.core.wiring.self ≠ o.config.world.furnace.furnace.self ∧
      ∀ r ∈ o.routings, r.Routed recipient := by
  induction ho with
  | init h =>
      refine ⟨h.2.1, fun r hr ↦ ?_⟩
      rw [h.2.2] at hr
      cases hr
  | @step o o' _ h ih =>
      cases h with
      | op call op hnow hexec =>
          have heffect := Returns.iff_forall.mp (exec_kings port call _ ih.1 op) _ hexec
          refine ⟨heffect.distinct ih.1, fun r hr ↦ ?_⟩
          unfold Recorded.extend at hr
          split at hr
          case isTrue hto =>
            rcases List.mem_cons.mp hr with rfl | hr
            · exact ⟨(heffect.routes hto).1, (heffect.routes hto).2⟩
            · exact ih.2 r hr
          case isFalse => exact ih.2 r hr
      | outside received furnace hnow hself => exact ⟨hself.symm, ih.2⟩

/-- In every run, each routing to a recipient whose pinned lock can be used goes into the
selected lock if that can be used and else into the pinned lock, and mints none, provided
that no lock is selected or the selected one can be used; otherwise the destination is
another lock.  Routings that are sound from the first minted lock on mint one lock in
all. -/
theorem settlements_top_up {o : Recorded S} (ho : (recorded port recipient).Reachable o) :
    (∀ r ∈ o.routings, r.Sound recipient → r.Preferred recipient) ∧
    ((∀ newer r older, o.routings = newer ++ r :: older → mintedByRoutings older ≠ 0 →
      r.Sound recipient) → mintedByRoutings o.routings ≤ 1) ∧
    ∀ (call : Call) (w : World S), PinUsable call w recipient →
      ((chooseDestination call w recipient).1.tokenId = preferredLock call w recipient ↔
        TargetSound call w recipient) := by
  have hrouted := (reachable_routed ho).2
  refine ⟨fun r hr ↦ (hrouted r hr).preferred, minted_le_one hrouted, fun call w ↦ ?_⟩
  exact chooseDestination_iff

/-! ## Computed runs -/

/-- Execute one call, with the routing that it may be. -/
def recordCall (port : VeClaimNFT.IShareholderRoyalties S) (recipient : Address) (p : Call × Op)
    (o : Recorded S) : Except Error (Recorded S) := do
  let w ← exec port p.1 o.config.world p.2
  return ⟨⟨p.1.timestamp, w⟩, o.extend recipient p.1 p.2 w⟩

theorem recorded_run {o o' : Recorded S} {calls : List (Call × Op)}
    (hrun : runCalls (recordCall port recipient) calls o = .ok o')
    (hsorted : (o.config.now :: calls.map fun p ↦ p.1.timestamp).IsChain (· ≤ ·)) :
    ReflTransGen (recorded port recipient).step o o' := by
  refine calls_run (fun o ↦ o.config.now) (fun p o o' hle hcall ↦ ?_) hrun hsorted
  obtain ⟨w, hexec, ho'⟩ := bind_eq_ok_iff.mp hcall
  obtain rfl := Except.ok.inj ho'
  exact ⟨.op p.1 p.2 hle hexec, rfl⟩

/-- A call in the bundle, with the market 6, an entry registry and a router. -/
def entryCall (timestamp sender value : ℕ) (h : 0 < timestamp) : Call :=
  let call := gameCall timestamp sender value h
  { call with
    routerConfig := fun _ ↦ some ⟨13, 13, 13, 2⟩
    staticcallAddress := fun target selector ↦
      if selector = .royalties then 5
      else if selector = .mineMarket then 6
      else call.staticcallAddress target selector }

/-- The bundle with a Furnace that takes entries. -/
def entryGame : Recorded Unit :=
  let c := deployedGame.config
  let f := c.world.furnace
  { config := { c with world := { c.world with
      furnace :=
        { furnace := { f.furnace with furnaceQuoter := 10, entryTokenRegistry := 12 }
          base := { f.base with ve := { f.base.ve with mineMarket := 6 } } } } }
    routings := [] }

theorem entryGame_init : (recorded VeClaimNFT.acceptingPort 21).init entryGame :=
  ⟨⟨by decide, 4, 5, 8, 9, false, rfl⟩, by decide, rfl⟩

/-- The answers to a takeover that has gas for everything. -/
def routingReplies : TakeoverReplies :=
  { plainReplies with gas := { forEnter := true, forFurnace := true, forSettle := true } }

/-- Two takeovers, of which the second settles the reign of account 21. -/
def settledReign (t : ℕ) : List (Call × Op) :=
  [(entryCall (t + 1) 21 ether (Nat.succ_pos t), .takeover routingReplies ether),
    (entryCall (t + 1000) 22 ether (Nat.succ_pos (t + 999)), .takeover routingReplies ether)]

def entryOpening : List (Call × Op) :=
  [(entryCall 1001 9 0 (Nat.succ_pos _), .setFurnace 3),
    (entryCall 87401 9 0 (Nat.succ_pos _), .collectGenesisKingClaim 20),
    (entryCall 90001 9 0 (Nat.succ_pos _), .setTakeoversPaused false)]

/-- Two reigns of account 21, which has selected no lock. -/
theorem settlements_top_up_twoReigns :
    ∃ o, (recorded VeClaimNFT.acceptingPort 21).Reachable o ∧
      ∃ r ∈ o.routings, PinUsable r.call r.before 21 ∧ r.Preferred 21 := by
  have hok : ((runCalls (recordCall VeClaimNFT.acceptingPort 21)
      (entryOpening ++ settledReign 90010 ++ settledReign 92000) entryGame).toOption.any fun o ↦
        o.routings.head?.any fun r ↦ decide (PinUsable r.call r.before 21 ∧
          (r.before.core.kings.kingAutoLockConfig 21).targetTokenId = 0)) = true := by
    decide +kernel
  obtain ⟨o, hrun, hlast⟩ := exists_ok_of_any hok
  obtain ⟨r, hr, hsound⟩ := (Option.any_eq_true _ _).mp hlast
  obtain ⟨hpin, htarget⟩ := of_decide_eq_true hsound
  have ho := (TransitionSystem.Reachable.init entryGame_init).run (recorded_run hrun (by decide))
  have hmem := List.mem_of_mem_head? hr
  exact ⟨o, ho, r, hmem, hpin, (settlements_top_up ho).1 r hmem ⟨hpin, .inl htarget⟩⟩

/-- Account 21 gets the lock 1, gives up its pin, gets another pinned lock, and selects
the lock 1. -/
def selectingRun : List (Call × Op) :=
  entryOpening ++ settledReign 90010 ++
  [(entryCall 91100 21 0 (Nat.succ_pos _), .setKingAutoLockConfig false 0 0 false 0)] ++
  settledReign 92000 ++
  [(entryCall 93100 21 0 (Nat.succ_pos _), .setKingAutoLockConfig true 1 0 false 0)]

/-- The world after the market has handed the lock 1 to the Furnace. -/
def soldTarget (o : Recorded Unit) : Except Error (Recorded Unit) := do
  let w := o.config.world
  let call := entryCall 93200 6 0 (Nat.succ_pos _)
  let base ← VeClaimNFT.transferFrom VeClaimNFT.acceptingPort call.toCall w.furnace.base 21 3 1
  return ⟨⟨93200, ⟨w.core, w.balance, { w.furnace with base := base }⟩⟩, o.routings⟩

theorem soldTarget_step {o o' : Recorded Unit} (h : soldTarget o = .ok o')
    (hnow : o.config.now ≤ 93200)
    (hself : o.config.world.core.wiring.self ≠ o.config.world.furnace.furnace.self) :
    (recorded VeClaimNFT.acceptingPort 21).step o o' := by
  obtain ⟨base, -, ho'⟩ := bind_eq_ok_iff.mp h
  obtain rfl := Except.ok.inj ho'
  exact .outside 0 { o.config.world.furnace with base := base } hnow hself.symm

/-- A selected lock that was sold: the next settlement mints a lock, although the pinned
one could be used. -/
theorem not_settlements_top_up :
    ¬ ∀ o, (recorded VeClaimNFT.acceptingPort 21).Reachable o →
      ∀ r ∈ o.routings, PinUsable r.call r.before 21 → r.Preferred 21 := by
  intro h
  have hok : ((do
      let o ← runCalls (recordCall VeClaimNFT.acceptingPort 21) selectingRun entryGame
      let sold ← soldTarget o
      let last ← runCalls (recordCall VeClaimNFT.acceptingPort 21) (settledReign 94000) sold
      return (o, sold, last) : Except Error (Recorded Unit × Recorded Unit × Recorded Unit)
      ).toOption.any fun p ↦ decide (p.1.config.now ≤ 93200 ∧ p.2.1.config.now = 93200) &&
        p.2.2.routings.head?.any fun r ↦ decide (PinUsable r.call r.before 21 ∧
          r.after.ve.nextTokenId ≠ r.before.ve.nextTokenId)) = true := by
    decide +kernel
  obtain ⟨⟨o, sold, last⟩, hrun, hcheck⟩ := exists_ok_of_any hok
  obtain ⟨o, hselect, hrun⟩ := bind_eq_ok_iff.mp hrun
  obtain ⟨sold, hsold, hrun⟩ := bind_eq_ok_iff.mp hrun
  obtain ⟨last, hlast, hrun⟩ := bind_eq_ok_iff.mp hrun
  obtain ⟨rfl, hrest⟩ := Prod.ext_iff.mp (Except.ok.inj hrun)
  obtain ⟨rfl, rfl⟩ := Prod.ext_iff.mp hrest
  obtain ⟨hnow, hcheck⟩ := Bool.and_eq_true_iff.mp hcheck
  obtain ⟨hbefore, hafter⟩ := of_decide_eq_true hnow
  obtain ⟨r, hr, hbad⟩ := (Option.any_eq_true _ _).mp hcheck
  obtain ⟨hpin, hminted⟩ := of_decide_eq_true hbad
  have ho := (TransitionSystem.Reachable.init entryGame_init).run (recorded_run hselect (by decide))
  have hsoldStep := ho.step (soldTarget_step hsold hbefore (reachable_routed ho).1)
  have hrest := recorded_run hlast (by
    rw [hafter]
    decide)
  exact hminted (h _ (hsoldStep.run hrest) r (List.mem_of_mem_head? hr) hpin).1

end ClaimRush.MineCore
