import ClaimRush.VeClaimNFT.Locks

/-!
# Sums over the lock table

The flat bias and the demanded slopes are totals over all token ids; a burned
or unminted token holds the zero lock and contributes nothing.  Writing one
lock trades its contribution.
-/

open Function

namespace ClaimRush.VeClaimNFT

open GlobalState

/-- Bias of all AutoMax locks. -/
noncomputable def flatBias (locks : ℕ → Lock) : ℕ := total fun id ↦ (locks id).flatBias

/-- Slope that the locks ending at `e` need to find scheduled there. -/
noncomputable def demand (locks : ℕ → Lock) (e : ℕ) : ℕ := total fun id ↦ (locks id).slopeAt e

/-- Only finitely many locks hold an amount. -/
def FiniteLocks (locks : ℕ → Lock) : Prop := FiniteEntries fun id ↦ (locks id).amount

variable {locks : ℕ → Lock}

theorem FiniteLocks.flat (h : FiniteLocks locks) :
    FiniteEntries fun id ↦ (locks id).flatBias :=
  h.mono fun id hid ↦ by simp [Lock.flatBias, hid]

theorem FiniteLocks.slope (h : FiniteLocks locks) (e : ℕ) :
    FiniteEntries fun id ↦ (locks id).slopeAt e :=
  h.mono fun id hid ↦ by simp [Lock.slopeAt, hid]

theorem comp_update_lock {α : Type} (f : Lock → α) (locks : ℕ → Lock) (id : ℕ) (l : Lock) :
    (fun x ↦ f (update locks id l x)) = update (fun x ↦ f (locks x)) id (f l) := by
  funext x
  by_cases hx : x = id
  · subst hx
    simp
  · simp [hx]

theorem FiniteLocks.update (h : FiniteLocks locks) (id : ℕ) (l : Lock) :
    FiniteLocks (update locks id l) := by
  unfold FiniteLocks
  rw [comp_update_lock Lock.amount]
  exact FiniteEntries.update h id _

theorem flatBias_update (h : FiniteLocks locks) (id : ℕ) (l : Lock) :
    flatBias (update locks id l) + (locks id).flatBias = flatBias locks + l.flatBias := by
  unfold flatBias
  rw [comp_update_lock Lock.flatBias]
  exact total_update h.flat id _

theorem demand_update (h : FiniteLocks locks) (id : ℕ) (l : Lock) (e : ℕ) :
    demand (update locks id l) e + (locks id).slopeAt e = demand locks e + l.slopeAt e := by
  unfold demand
  rw [comp_update_lock fun l ↦ l.slopeAt e]
  exact total_update (h.slope e) id _

theorem flatBias_le (h : FiniteLocks locks) (id : ℕ) : (locks id).flatBias ≤ flatBias locks :=
  le_total h.flat id

theorem slopeAt_le_demand (h : FiniteLocks locks) (id e : ℕ) :
    (locks id).slopeAt e ≤ demand locks e :=
  le_total (h.slope e) id

/-- Two different locks are counted separately. -/
theorem flatBias_add_le (h : FiniteLocks locks) {id id' : ℕ} (hne : id ≠ id') :
    (locks id).flatBias + (locks id').flatBias ≤ flatBias locks := by
  have hupdate := flatBias_update h id {}
  have hle := flatBias_le (h.update id {}) id'
  rw [update_of_ne hne.symm] at hle
  rw [Lock.flatBias_default] at hupdate
  omega

theorem slopeAt_add_le_demand (h : FiniteLocks locks) {id id' : ℕ} (hne : id ≠ id') (e : ℕ) :
    (locks id).slopeAt e + (locks id').slopeAt e ≤ demand locks e := by
  have hupdate := demand_update h id {} e
  have hle := slopeAt_le_demand (h.update id {}) id' e
  rw [update_of_ne hne.symm] at hle
  rw [Lock.slopeAt_default] at hupdate
  omega

namespace VeState

/-- The books of the contract: the accumulators are exact and cover every lock,
tokens without an owner hold no lock, unminted ids have no owner, and no logged
clamp discarded a slope. -/
structure Accounted (s : VeState) : Prop where
  backed : s.global.Backed (flatBias s.locks) fun e ↦ demand s.locks e
  burned : ∀ id, s.owners id = 0 → s.locks id = {}
  fresh : ∀ id, s.nextTokenId ≤ id → s.owners id = 0
  clamps : ClampsExact s.events

variable {s s' : VeState}

theorem Accounted.finite (h : s.Accounted) : FiniteLocks s.locks := by
  refine (Set.finite_lt_nat s.nextTokenId).subset fun id hid ↦ ?_
  by_contra hlt
  have hdead := h.burned id (h.fresh id (not_lt.mp hlt))
  exact hid (by simp [hdead])

/-- `s'` differs from `s` in the enumeration arrays only. -/
structure SameBooks (s s' : VeState) : Prop where
  global : s'.global = s.global
  locks : s'.locks = s.locks
  owners : s'.owners = s.owners
  nextTokenId : s'.nextTokenId = s.nextTokenId
  events : s'.events = s.events

theorem removeTokenFromOwnerEnumeration_spec (src : Address) (tokenId : ℕ) :
    Outcome (SameBooks s) NotViolation (s.removeTokenFromOwnerEnumeration src tokenId) := by
  unfold removeTokenFromOwnerEnumeration
  refine Outcome.usub_bind notViolation_panic fun _ ↦ ?_
  dsimp only
  split_ifs
  · exact Outcome.revertIf_bind (fun _ ↦ notViolation_panic) fun _ ↦ ⟨rfl, rfl, rfl, rfl, rfl⟩
  · exact ⟨rfl, rfl, rfl, rfl, rfl⟩

theorem updateEnumeration_spec (src dst : Address) (tokenId : ℕ) :
    Outcome (SameBooks s) NotViolation (s.updateEnumeration src dst tokenId) := by
  unfold updateEnumeration
  refine Outcome.revertIf_bind (fun _ ↦ by simp [NotViolation]) fun _ ↦ ?_
  have hadd (s' : VeState) (h : SameBooks s s') :
      SameBooks s (s'.addTokenToOwnerEnumeration dst tokenId) :=
    ⟨h.global, h.locks, h.owners, h.nextTokenId, h.events⟩
  have hself : SameBooks s s := ⟨rfl, rfl, rfl, rfl, rfl⟩
  have hremove := removeTokenFromOwnerEnumeration_spec (s := s) src tokenId
  dsimp only
  split_ifs
  · exact Outcome.bind hremove hadd
  · exact Outcome.bind hremove fun s' hs' ↦ hs'
  · exact hadd s hself
  · exact hself

/-- `s'` has the accumulators of `s` and gives `tokenId` the owner `dst`. -/
structure Assigned (s s' : VeState) (tokenId : ℕ) (dst : Address) : Prop where
  global : s'.global = s.global
  owners : s'.owners = update s.owners tokenId dst
  nextTokenId : s'.nextTokenId = s.nextTokenId
  clamps : ClampsExact s.events → ClampsExact s'.events

/-- The base `_update` followed by the enumeration. -/
theorem transferOwnership_spec (src dst : Address) (tokenId : ℕ) :
    Outcome (fun s' ↦ Assigned s s' tokenId dst ∧ s'.locks = s.locks)
      NotViolation ((s.baseUpdate dst tokenId).updateEnumeration src dst tokenId) := by
  refine (updateEnumeration_spec src dst tokenId).weaken fun s' hs' ↦ ?_
  refine ⟨⟨hs'.global, hs'.owners, hs'.nextTokenId, fun hc ↦ ?_⟩, hs'.locks⟩
  rw [hs'.events]
  exact hc.append (by simp [ClampsExact])

theorem mint_spec (dst : Address) (tokenId : ℕ) :
    Outcome (fun s' ↦ dst ≠ 0 ∧ Assigned s s' tokenId dst ∧ s'.locks = s.locks)
      NotViolation (s.mint dst tokenId) := by
  unfold mint
  refine Outcome.revertIf_bind (fun _ ↦ by simp [NotViolation]) fun hdst ↦ ?_
  refine Outcome.bind (transferOwnership_spec _ dst tokenId) fun s' hs' ↦ ?_
  exact Outcome.revertIf_bind (fun _ ↦ by simp [NotViolation]) fun _ ↦ ⟨hdst, hs'⟩

theorem burn_spec (tokenId : ℕ) :
    Outcome (fun s' ↦ Assigned s s' tokenId 0 ∧ s'.locks = update s.locks tokenId {})
      NotViolation (s.burn tokenId) := by
  unfold burn
  refine Outcome.bind (transferOwnership_spec _ 0 tokenId) fun s' hs' ↦ ?_
  refine Outcome.revertIf_bind (fun _ ↦ by simp [NotViolation]) fun _ ↦ ?_
  obtain ⟨hassigned, hlocks⟩ := hs'
  refine ⟨⟨hassigned.global, hassigned.owners, hassigned.nextTokenId, hassigned.clamps⟩, ?_⟩
  rw [← hlocks]
  rfl

/-! ## Writing locks -/

/-- The books after a mutation that settled the accumulators for the new lock
table. -/
theorem accounted_of_settled {flat : ℤ} {d : ℕ → ℤ} {g : GlobalState}
    (hsettled : Settled s.global g flat d) (hglobal : s'.global = g)
    (hclamps : ClampsExact s'.events)
    (hflat : (flatBias s'.locks : ℤ) = flat) (hdemand : ∀ e, (demand s'.locks e : ℤ) = d e)
    (hburned : ∀ id, s'.owners id = 0 → s'.locks id = {})
    (hfresh : ∀ id, s'.nextTokenId ≤ id → s'.owners id = 0) : s'.Accounted := by
  obtain ⟨⟨flat', hflat', hbacked⟩, -⟩ := hsettled
  have hsame : flat' = flatBias s'.locks := by omega
  refine ⟨?_, hburned, hfresh, hclamps⟩
  rw [hglobal, ← hsame]
  exact ⟨hbacked.exact, fun e he ↦ (hdemand e).le.trans (hbacked.covers e he)⟩

/-- The books after the lock `tokenId` has become `l`. -/
theorem Accounted.write {flat : ℤ} {d : ℕ → ℤ} {g : GlobalState} {tokenId : ℕ} {l : Lock}
    (h : s.Accounted) (hsettled : Settled s.global g flat d) (hglobal : s'.global = g)
    (hclamps : ClampsExact s'.events)
    (hlocks : s'.locks = update s.locks tokenId l)
    (hflat : flat = flatBias s.locks - (s.locks tokenId).flatBias + l.flatBias)
    (hdemand : ∀ e, d e = demand s.locks e - (s.locks tokenId).slopeAt e + l.slopeAt e)
    (hburned : ∀ id, s'.owners id = 0 → s'.locks id = {})
    (hfresh : ∀ id, s'.nextTokenId ≤ id → s'.owners id = 0) : s'.Accounted := by
  refine accounted_of_settled hsettled hglobal hclamps ?_ (fun e ↦ ?_) hburned hfresh
  · have := flatBias_update h.finite tokenId l
    rw [hlocks]
    omega
  · have := demand_update h.finite tokenId l e
    rw [hlocks, hdemand]
    omega

/-- Minting the next token with the lock `l`. -/
theorem Accounted.mint {g : GlobalState} {l : Lock} {dst : Address} (h : s.Accounted)
    (hsettled : Settled s.global g (flatBias s.locks + l.flatBias)
      fun e ↦ demand s.locks e + l.slopeAt e)
    (hglobal : s'.global = g) (hclamps : ClampsExact s'.events) (hdst : dst ≠ 0)
    (hlocks : s'.locks = update s.locks s.nextTokenId l)
    (howners : s'.owners = update s.owners s.nextTokenId dst)
    (hnext : s'.nextTokenId = s.nextTokenId + 1) : s'.Accounted := by
  have hunminted := h.burned _ (h.fresh _ le_rfl)
  refine h.write hsettled hglobal hclamps hlocks ?_ (fun e ↦ ?_) (fun id hid ↦ ?_)
    (fun id hid ↦ ?_)
  · rw [hunminted, Lock.flatBias_default]
    ring
  · rw [hunminted, Lock.slopeAt_default]
    ring
  · by_cases hne : id = s.nextTokenId
    · rw [howners, hne, update_self] at hid
      exact absurd hid hdst
    · rw [howners, update_of_ne hne] at hid
      rw [hlocks, update_of_ne hne]
      exact h.burned id hid
  · rw [howners, update_of_ne (by omega)]
    exact h.fresh id (by omega)

/-- Rewriting the lock of an owned token. -/
theorem Accounted.rewrite {flat : ℤ} {d : ℕ → ℤ} {g : GlobalState} {tokenId : ℕ} {l : Lock}
    (h : s.Accounted) (howned : s.owners tokenId ≠ 0)
    (hsettled : Settled s.global g flat d) (hglobal : s'.global = g)
    (hclamps : ClampsExact s'.events)
    (hlocks : s'.locks = update s.locks tokenId l) (howners : s'.owners = s.owners)
    (hnext : s'.nextTokenId = s.nextTokenId)
    (hflat : flat = flatBias s.locks - (s.locks tokenId).flatBias + l.flatBias)
    (hdemand : ∀ e, d e = demand s.locks e - (s.locks tokenId).slopeAt e + l.slopeAt e) :
    s'.Accounted := by
  refine h.write hsettled hglobal hclamps hlocks hflat hdemand (fun id hid ↦ ?_) (fun id hid ↦ ?_)
  · rw [howners] at hid
    have hne : id ≠ tokenId := by
      rintro rfl
      exact howned hid
    rw [hlocks, update_of_ne hne]
    exact h.burned id hid
  · rw [howners]
    exact h.fresh id (hnext ▸ hid)

/-- Merging the lock of `fromId` into the owned lock of `intoId`. -/
theorem Accounted.merge {g : GlobalState} {fromId intoId : ℕ} {l : Lock} (h : s.Accounted)
    (hne : fromId ≠ intoId) (howned : s.owners intoId ≠ 0)
    (hsettled : Settled s.global g
      (flatBias s.locks - (s.locks fromId).flatBias - (s.locks intoId).flatBias + l.flatBias)
      fun e ↦ demand s.locks e - (s.locks fromId).slopeAt e - (s.locks intoId).slopeAt e +
        l.slopeAt e)
    (hglobal : s'.global = g) (hclamps : ClampsExact s'.events)
    (hlocks : s'.locks = update (update s.locks intoId l) fromId {})
    (howners : s'.owners = update s.owners fromId 0)
    (hnext : s'.nextTokenId = s.nextTokenId) : s'.Accounted := by
  have hfinite := h.finite
  refine accounted_of_settled hsettled hglobal hclamps ?_ (fun e ↦ ?_) (fun id hid ↦ ?_)
    (fun id hid ↦ ?_)
  · have hinto := flatBias_update hfinite intoId l
    have hfrom := flatBias_update (hfinite.update intoId l) fromId {}
    rw [update_of_ne hne, Lock.flatBias_default] at hfrom
    rw [hlocks]
    omega
  · have hinto := demand_update hfinite intoId l e
    have hfrom := demand_update (hfinite.update intoId l) fromId {} e
    rw [update_of_ne hne, Lock.slopeAt_default] at hfrom
    rw [hlocks]
    omega
  · by_cases hfrom : id = fromId
    · rw [hlocks, hfrom, update_self]
    · rw [howners, update_of_ne hfrom] at hid
      have hinto : id ≠ intoId := by
        rintro rfl
        exact howned hid
      rw [hlocks, update_of_ne hfrom, update_of_ne hinto]
      exact h.burned id hid
  · by_cases hfrom : id = fromId
    · rw [howners, hfrom, update_self]
    · rw [howners, update_of_ne hfrom]
      exact h.fresh id (hnext ▸ hid)

/-- Rewriting an owned lock without changing what it contributes. -/
theorem Accounted.restyle {tokenId : ℕ} {l : Lock} (h : s.Accounted)
    (howned : s.owners tokenId ≠ 0) (hglobal : s'.global = s.global)
    (hclamps : ClampsExact s'.events) (hlocks : s'.locks = update s.locks tokenId l)
    (howners : s'.owners = s.owners) (hnext : s'.nextTokenId = s.nextTokenId)
    (hflat : l.flatBias = (s.locks tokenId).flatBias)
    (hslope : ∀ e, l.slopeAt e = (s.locks tokenId).slopeAt e) : s'.Accounted := by
  have hsettled : Settled s.global s.global (flatBias s.locks) fun e ↦ demand s.locks e :=
    ⟨⟨_, rfl, h.backed⟩, rfl⟩
  refine h.rewrite howned hsettled hglobal hclamps hlocks howners hnext ?_ fun e ↦ ?_
  · rw [hflat]
    ring
  · rw [hslope]
    ring

/-- A token whose lock can be mutated has an owner. -/
theorem Accounted.owned_of_mutable {tokenId nowTs : ℕ} (h : s.Accounted)
    (hmutable : (s.locks tokenId).autoMax = false → nowTs < (s.locks tokenId).lockEnd) :
    s.owners tokenId ≠ 0 := by
  intro howner
  rw [h.burned tokenId howner] at hmutable
  exact absurd (hmutable rfl) (Nat.not_lt_zero _)

/-- Burning an owned token after its contribution has been taken out. -/
theorem Accounted.remove {flat : ℤ} {d : ℕ → ℤ} {g : GlobalState} {tokenId : ℕ}
    (h : s.Accounted) (hsettled : Settled s.global g flat d) (hglobal : s'.global = g)
    (hclamps : ClampsExact s'.events)
    (hlocks : s'.locks = update s.locks tokenId {})
    (howners : s'.owners = update s.owners tokenId 0)
    (hnext : s'.nextTokenId = s.nextTokenId)
    (hflat : flat = flatBias s.locks - (s.locks tokenId).flatBias)
    (hdemand : ∀ e, d e = demand s.locks e - (s.locks tokenId).slopeAt e) : s'.Accounted := by
  refine h.write (l := {}) hsettled hglobal hclamps hlocks ?_ (fun e ↦ ?_) (fun id hid ↦ ?_)
    (fun id hid ↦ ?_)
  · rw [hflat, Lock.flatBias_default]
    omega
  · rw [hdemand, Lock.slopeAt_default]
    omega
  · by_cases hne : id = tokenId
    · rw [hlocks, hne, update_self]
    · rw [howners, update_of_ne hne] at hid
      rw [hlocks, update_of_ne hne]
      exact h.burned id hid
  · by_cases hne : id = tokenId
    · rw [howners, hne, update_self]
    · rw [howners, update_of_ne hne]
      exact h.fresh id (hnext ▸ hid)

/-- Moving an owned token to another owner. -/
theorem Accounted.assign {tokenId : ℕ} {dst : Address} (h : s.Accounted)
    (howned : s.owners tokenId ≠ 0) (hassigned : Assigned s s' tokenId dst)
    (hlocks : s'.locks = s.locks) (hdst : dst ≠ 0) : s'.Accounted where
  backed := by
    rw [hassigned.global, hlocks]
    exact h.backed
  burned id hid := by
    have hne : id ≠ tokenId := by
      rintro rfl
      rw [hassigned.owners, update_self] at hid
      exact hdst hid
    rw [hassigned.owners, update_of_ne hne] at hid
    rw [hlocks]
    exact h.burned id hid
  fresh id hid := by
    have hold := h.fresh id (hassigned.nextTokenId ▸ hid)
    have hne : id ≠ tokenId := by
      rintro rfl
      exact howned hold
    rw [hassigned.owners, update_of_ne hne]
    exact hold
  clamps := hassigned.clamps h.clamps

/-- The books after a step that leaves the lock table alone. -/
theorem Accounted.keep (h : s.Accounted) (hglobal : s'.global = s.global)
    (hclamps : ClampsExact s'.events) (hlocks : s'.locks = s.locks) (howners : s'.owners = s.owners)
    (hnext : s'.nextTokenId = s.nextTokenId) : s'.Accounted where
  backed := by
    rw [hglobal, hlocks]
    exact h.backed
  burned := by
    rw [howners, hlocks]
    exact h.burned
  fresh := by
    rw [howners, hnext]
    exact h.fresh
  clamps := hclamps

/-- A global checkpoint keeps the books. -/
theorem Accounted.checkpoint {nowTs : ℕ} (h : s.Accounted)
    (hnow : s.global.globalLastTs ≤ nowTs) :
    Outcome (fun s' ↦ s'.Accounted ∧ s'.global.globalLastTs ≤ nowTs ∧
        s.global.globalLastTs ≤ s'.global.globalLastTs ∧
        s'.locks = s.locks ∧ s'.owners = s.owners ∧ s'.nextTokenId = s.nextTokenId)
      NotViolation (s.checkpointGlobalStateInternal nowTs) := by
  unfold VeState.checkpointGlobalStateInternal
  refine Outcome.bind ((checkpointGlobalStateInternal_spec h.backed.exact hnow).mono
    (fun _ ↦ id) fun _ ↦ False.elim) ?_
  rintro ⟨g, log⟩ ⟨hcp, hclamps⟩
  refine ⟨⟨⟨hcp.exact, fun e he ↦ ?_⟩, h.burned, h.fresh, h.clamps.append hclamps⟩,
    hcp.le_now, hcp.le, rfl, rfl, rfl⟩
  have hlater := hcp.later e he
  dsimp only at hlater he ⊢
  rw [hlater]
  exact h.backed.covers e (lt_of_le_of_lt hcp.le he)

end VeState

end ClaimRush.VeClaimNFT
