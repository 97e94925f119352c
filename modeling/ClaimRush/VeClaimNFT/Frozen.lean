import ClaimRush.VeClaimNFT.Tables

/-!
# Frozen locks

A listed lock is frozen.  Only the market lists a lock and takes it back, and no other
operation changes a frozen lock or its owner.
-/

open Function

namespace ClaimRush.VeClaimNFT

namespace VeState

/-- The token is live and its lock is listed. -/
def Frozen (s : VeState) (tokenId : ℕ) : Prop :=
  s.owners tokenId ≠ 0 ∧ (s.locks tokenId).listed = true

/-- Frozen locks stay with their owners as they are, and no lock is frozen anew. -/
structure KeepsFrozen (s s' : VeState) : Prop where
  owner : ∀ id, s.Frozen id → s'.owners id = s.owners id
  lock : ∀ id, s.Frozen id → s'.locks id = s.locks id
  frozen : ∀ id, s'.Frozen id → s.Frozen id

variable {s s' s'' : VeState}

theorem not_frozen {tokenId : ℕ} (h : (s.locks tokenId).listed = false) : ¬ s.Frozen tokenId := by
  rintro ⟨-, hlisted⟩
  rw [h] at hlisted
  cases hlisted

namespace KeepsFrozen

theorem refl (s : VeState) : s.KeepsFrozen s :=
  ⟨fun _ _ ↦ rfl, fun _ _ ↦ rfl, fun _ ↦ id⟩

theorem frozen_iff (h : s.KeepsFrozen s') (id : ℕ) : s'.Frozen id ↔ s.Frozen id := by
  refine ⟨h.frozen id, fun hfrozen ↦ ?_⟩
  rw [Frozen, h.owner id hfrozen, h.lock id hfrozen]
  exact hfrozen

theorem trans (h : s.KeepsFrozen s') (h' : s'.KeepsFrozen s'') : s.KeepsFrozen s'' := by
  constructor
  · intro id hfrozen
    exact (h'.owner id ((h.frozen_iff id).mpr hfrozen)).trans (h.owner id hfrozen)
  · intro id hfrozen
    exact (h'.lock id ((h.frozen_iff id).mpr hfrozen)).trans (h.lock id hfrozen)
  · exact fun id ↦ h.frozen id ∘ h'.frozen id

/-- Nothing changes but a token that is frozen neither before nor after. -/
theorem of_other {tokenId : ℕ} (hbefore : ¬ s.Frozen tokenId) (hafter : ¬ s'.Frozen tokenId)
    (howners : ∀ id, id ≠ tokenId → s'.owners id = s.owners id)
    (hlocks : ∀ id, id ≠ tokenId → s'.locks id = s.locks id) : s.KeepsFrozen s' := by
  have hne {id : ℕ} (hfrozen : s.Frozen id) : id ≠ tokenId := by
    rintro rfl
    exact hbefore hfrozen
  refine ⟨fun id hfrozen ↦ howners id (hne hfrozen), fun id hfrozen ↦ hlocks id (hne hfrozen), ?_⟩
  intro id hfrozen
  have hne : id ≠ tokenId := by
    rintro rfl
    exact hafter hfrozen
  rw [Frozen, ← howners id hne, ← hlocks id hne]
  exact hfrozen

theorem same (howners : s'.owners = s.owners) (hlocks : s'.locks = s.locks) : s.KeepsFrozen s' := by
  refine ⟨fun id _ ↦ congrFun howners id, fun id _ ↦ congrFun hlocks id, fun id hfrozen ↦ ?_⟩
  rw [Frozen, ← howners, ← hlocks]
  exact hfrozen

theorem follows (h : s.KeepsFrozen s') (hve : s'.Follows s'') : s.KeepsFrozen s'' :=
  h.trans (same (hve.keeps owners fun _ _ ↦ rfl) (hve.keeps locks fun _ _ ↦ rfl))

theorem relocked {tokenId : ℕ} {l : Lock} (howners : s'.owners = s.owners)
    (hlocks : s'.locks = update s.locks tokenId l) (hbefore : (s.locks tokenId).listed = false)
    (hafter : l.listed = false) : s.KeepsFrozen s' := by
  refine of_other (not_frozen hbefore) (not_frozen ?_) (fun id _ ↦ congrFun howners id)
    fun id hid ↦ ?_
  · rw [hlocks, update_self]
    exact hafter
  · rw [hlocks, update_of_ne hid]

theorem removed {tokenId : ℕ} {l : Lock} (hbefore : (s.locks tokenId).listed = false)
    (howners : s'.owners = update s.owners tokenId 0)
    (hlocks : s'.locks = update s.locks tokenId l) : s.KeepsFrozen s' := by
  refine of_other (not_frozen hbefore) ?_ (fun id hid ↦ ?_) fun id hid ↦ ?_
  · exact fun hfrozen ↦ hfrozen.1 (by rw [howners, update_self])
  · rw [howners, update_of_ne hid]
  · rw [hlocks, update_of_ne hid]

theorem moved {tokenId : ℕ} {dst : Address} (hbefore : (s.locks tokenId).listed = false)
    (howners : s'.owners = update s.owners tokenId dst) (hlocks : s'.locks = s.locks) :
    s.KeepsFrozen s' := by
  refine of_other (not_frozen hbefore) (not_frozen ?_) (fun id hid ↦ ?_)
    fun id _ ↦ congrFun hlocks id
  · rw [hlocks]
    exact hbefore
  · rw [howners, update_of_ne hid]

theorem created {tokenId : ℕ} {user : Address} {l : Lock}
    (howners : s'.owners = update s.owners tokenId user)
    (hlocks : s'.locks = update s.locks tokenId l) (hvacant : s.owners tokenId = 0)
    (hl : l.listed = false) : s.KeepsFrozen s' := by
  refine of_other (fun hfrozen ↦ hfrozen.1 hvacant) (not_frozen ?_)
    (fun id hid ↦ ?_) fun id hid ↦ ?_
  · rw [hlocks, update_self]
    exact hl
  · rw [howners, update_of_ne hid]
  · rw [hlocks, update_of_ne hid]

end KeepsFrozen

end VeState

section Exec

variable {S : Type} {port : IShareholderRoyalties S} {call : Call} {op : Op} {w w' : World S}

theorem Withdrawn.keepsFrozen {tokenId : ℕ} {recipient : Address}
    (h : Withdrawn tokenId recipient w w') : w.ve.KeepsFrozen w'.ve := by
  have hremoved : w.ve.KeepsFrozen (w.ve.withdrawn tokenId) := .removed h.unlisted rfl rfl
  exact hremoved.follows h.ve

theorem Handed.keepsFrozen {sender src dst : Address} {tokenId : ℕ}
    (h : Handed sender src dst tokenId w w') : w.ve.KeepsFrozen w'.ve := by
  have hmoved : w.ve.KeepsFrozen (w.ve.handed dst tokenId) := .moved h.unlisted rfl rfl
  exact hmoved.follows h.ve

theorem Merged.keepsFrozen {nowTs fromTokenId intoTokenId : ℕ} {user : Address}
    (h : Merged nowTs user fromTokenId intoTokenId w w') : w.ve.KeepsFrozen w'.ve := by
  have hinto : w.ve.KeepsFrozen (w.ve.setLock intoTokenId
      (VeState.mergedLock nowTs (w.ve.locks fromTokenId) (w.ve.locks intoTokenId))) :=
    .relocked rfl rfl h.into_mutable.unlisted h.into_mutable.unlisted
  have hfrom : (w.ve.setLock intoTokenId
      (VeState.mergedLock nowTs (w.ve.locks fromTokenId) (w.ve.locks intoTokenId))).KeepsFrozen
        (w.ve.merged nowTs fromTokenId intoTokenId) := by
    refine .removed ?_ rfl rfl
    rw [VeState.setLock]
    dsimp only
    rw [update_of_ne h.distinct]
    exact h.from_mutable.unlisted
  exact (hinto.trans hfrom).follows h.ve

/-- A lock is written again that the contract may change. -/
theorem relocked_keepsFrozen {nowTs tokenId : ℕ} {l : Lock} {s : VeState}
    (hve : s.Follows w'.ve) (howners : s.owners = w.ve.owners)
    (hlocks : s.locks = update w.ve.locks tokenId l) (hmutable : (w.ve.locks tokenId).Mutable nowTs)
    (hl : l.listed = (w.ve.locks tokenId).listed) : w.ve.KeepsFrozen w'.ve := by
  have hrelocked : w.ve.KeepsFrozen s :=
    .relocked howners hlocks hmutable.unlisted (hl.trans hmutable.unlisted)
  exact hrelocked.follows hve

theorem Rewired.keepsFrozen (h : Rewired w w') : w.ve.KeepsFrozen w'.ve := by
  refine .same ?_ ?_
  · exact h.ve.keeps VeState.owners fun _ _ ↦ rfl
  · exact h.ve.keeps VeState.locks fun _ _ ↦ rfl

/-- Only the market changes what is frozen. -/
theorem exec_keepsFrozen (hop : ∀ tokenId listed, op ≠ .setListed tokenId listed)
    (hexec : exec port call w op = .ok w') : w.ve.KeepsFrozen w'.ve := by
  have heffect := (exec_effect port call w op).of_ok hexec
  cases op with
  | createLockFor user amount duration autoMax =>
      refine VeState.KeepsFrozen.follows ?_ heffect.2.ve
      exact .created rfl rfl heffect.2.vacant rfl
  | addToLockFor user tokenId amount =>
      exact relocked_keepsFrozen heffect.2.ve rfl rfl heffect.2.mutable rfl
  | extendLockToFor user tokenId newEnd =>
      exact relocked_keepsFrozen heffect.2.ve rfl rfl heffect.2.mutable rfl
  | mergeLocksFor user fromTokenId intoTokenId => exact heffect.2.keepsFrozen
  | setAutoMax tokenId enabled =>
      refine relocked_keepsFrozen heffect.ve rfl rfl heffect.mutable ?_
      unfold toggledLock
      split <;> rfl
  | unlock tokenId => exact heffect.toWithdrawn.keepsFrozen
  | unlockExpiredForUser user tokenId => exact heffect.toWithdrawn.keepsFrozen
  | furnaceBurnAndWithdraw tokenId recipient => exact heffect.2.2.keepsFrozen
  | transferFrom src dst tokenId => exact heffect.keepsFrozen
  | safeTransferFrom src dst tokenId => exact heffect.keepsFrozen
  | setListed tokenId listed => exact absurd rfl (hop tokenId listed)
  | checkpointGlobalState => exact (VeState.KeepsFrozen.refl _).follows heffect.ve
  | setMineMarket mineMarket => exact heffect.keepsFrozen
  | setFurnace furnace => exact heffect.keepsFrozen
  | freezeConfig => exact heffect.keepsFrozen

end Exec

end ClaimRush.VeClaimNFT
