import ClaimRush.VeClaimNFT.Runs

/-!
# Holdings

What the royalties contract sees of the lock contract: who holds which lock.
A mutation changes the lock of a holder only after the royalties checkpoint of
that holder succeeded, or takes the lock away.
-/

open Function

namespace ClaimRush.VeClaimNFT

open Constants VeState

/-! ## The owner enumeration -/

/-- The enumeration lists the tokens of each owner, at their recorded indices. -/
structure Enumerates (owners : ℕ → Address) (tokens : Address → List ℕ) (index : ℕ → ℕ) :
    Prop where
  mem_iff : ∀ u id, id ∈ tokens u ↔ u ≠ 0 ∧ owners id = u
  index_eq : ∀ u i id, (tokens u)[i]? = some id → index id = i

namespace Enumerates

variable {owners : ℕ → Address} {tokens : Address → List ℕ} {index : ℕ → ℕ}

theorem nodup (h : Enumerates owners tokens index) (u : Address) : (tokens u).Nodup := by
  rw [List.nodup_iff_getElem?_ne_getElem?]
  intro i j hij hj heq
  have hsome : (tokens u)[j]? = some (tokens u)[j] := List.getElem?_eq_getElem hj
  have hi := h.index_eq u i _ (heq.trans hsome)
  have hj' := h.index_eq u j _ hsome
  omega

/-- A sum over the list of an owner is the part of the total that it owns. -/
theorem sum_eq (h : Enumerates owners tokens index) (f : ℕ → ℕ) {u : Address} (hu : u ≠ 0) :
    ((tokens u).map f).sum = fiberTotal f owners u := by
  have hmem (id : ℕ) : id ∈ tokens u ↔ owners id = u :=
    (h.mem_iff u id).trans (and_iff_right hu)
  unfold fiberTotal
  rw [total_eq_list_sum (h.nodup u) fun id hid ↦ (hmem id).mpr ?_]
  · refine congrArg List.sum (List.map_congr_left fun id hid ↦ ?_)
    rw [if_pos ((hmem id).mp hid)]
  · by_contra hne
    exact hid (if_neg hne)

/-- A new token goes to the end of the list. -/
theorem add (h : Enumerates owners tokens index) {id : ℕ} {dst : Address}
    (hfree : owners id = 0) (hdst : dst ≠ 0) :
    Enumerates (update owners id dst) (update tokens dst (tokens dst ++ [id]))
      (update index id (tokens dst).length) := by
  have hnone (u : Address) (hu : id ∈ tokens u) : False := by
    obtain ⟨hne, howner⟩ := (h.mem_iff u id).mp hu
    exact hne (howner.symm.trans hfree)
  refine ⟨fun u x ↦ ?_, fun u i x hx ↦ ?_⟩
  · by_cases hu : u = dst
    · subst hu
      by_cases hx : x = id
      · subst hx
        simp [hdst]
      · simp [hx, h.mem_iff]
    · rw [update_of_ne hu, h.mem_iff]
      by_cases hx : x = id
      · subst hx
        rw [update_self, hfree]
        constructor
        · rintro ⟨hne, heq⟩
          exact absurd heq.symm hne
        · rintro ⟨hne, heq⟩
          exact absurd heq.symm hu
      · rw [update_of_ne hx]
  · by_cases hu : u = dst
    · subst hu
      rw [update_self, List.getElem?_append] at hx
      split_ifs at hx with hi
      · have hne : x ≠ id := by
          rintro rfl
          exact hnone u (List.mem_of_getElem? hx)
        rw [update_of_ne hne]
        exact h.index_eq u i x hx
      · rw [List.getElem?_singleton] at hx
        split_ifs at hx with hzero
        obtain rfl := Option.some.inj hx
        rw [update_self]
        omega
    · rw [update_of_ne hu] at hx
      have hne : x ≠ id := by
        rintro rfl
        exact hnone u (List.mem_of_getElem? hx)
      rw [update_of_ne hne]
      exact h.index_eq u i x hx

/-- Lists after the token at place `i` of `src` has been replaced by `ids'`. -/
theorem replace (h : Enumerates owners tokens index) {id : ℕ} {src : Address}
    (howner : owners id = src) (hsrc : src ≠ 0) {ids' : List ℕ} {index' : ℕ → ℕ}
    (hmem : ∀ x, x ∈ ids' ↔ x ∈ tokens src ∧ x ≠ id)
    (hindex : ∀ i x, ids'[i]? = some x → index' x = i)
    (hsame : ∀ x, x ∉ tokens src → index' x = index x) :
    Enumerates (update owners id 0) (update tokens src ids') index' := by
  refine ⟨fun u x ↦ ?_, fun u i x hx ↦ ?_⟩
  · by_cases hx : x = id
    · subst hx
      rw [update_self]
      by_cases hu : u = src
      · subst hu
        simp [hmem, Ne.symm hsrc]
      · rw [update_of_ne hu, h.mem_iff, howner]
        constructor
        · rintro ⟨hne, heq⟩
          exact absurd heq.symm hu
        · rintro ⟨hne, heq⟩
          exact absurd heq.symm hne
    · rw [update_of_ne hx]
      by_cases hu : u = src
      · subst hu
        rw [update_self, hmem, h.mem_iff]
        simp [hx]
      · rw [update_of_ne hu, h.mem_iff]
  · by_cases hu : u = src
    · subst hu
      rw [update_self] at hx
      exact hindex i x hx
    · rw [update_of_ne hu] at hx
      rw [hsame x ?_]
      · exact h.index_eq u i x hx
      · intro hxsrc
        have hxu := (h.mem_iff u x).mp (List.mem_of_getElem? hx)
        have hxs := (h.mem_iff src x).mp hxsrc
        exact hu (hxu.2.symm.trans hxs.2)

/-- Popping the last token. -/
theorem pop (h : Enumerates owners tokens index) {id : ℕ} {src : Address}
    (howner : owners id = src) (hsrc : src ≠ 0) (hlast : index id = (tokens src).length - 1) :
    Enumerates (update owners id 0) (update tokens src (tokens src).dropLast) index := by
  refine h.replace howner hsrc (fun x ↦ ?_) (fun i x hx ↦ ?_) fun _ _ ↦ rfl
  · rw [List.mem_iff_getElem?]
    constructor
    · rintro ⟨i, hi⟩
      rw [List.getElem?_dropLast] at hi
      split_ifs at hi with hlt
      refine ⟨List.mem_of_getElem? hi, ?_⟩
      rintro rfl
      have := h.index_eq src i x hi
      omega
    · rintro ⟨hx, hne⟩
      obtain ⟨i, hi⟩ := List.mem_iff_getElem?.mp hx
      obtain ⟨j, hj⟩ := List.mem_iff_getElem?.mp ((h.mem_iff src id).mpr ⟨hsrc, howner⟩)
      have hij : i ≠ (tokens src).length - 1 := by
        intro heq
        have := h.index_eq src j id hj
        have hji : j = i := by omega
        rw [hji, hi] at hj
        exact hne (Option.some.inj hj)
      have hlt := (List.getElem?_eq_some_iff.mp hi).1
      refine ⟨i, ?_⟩
      rw [List.getElem?_dropLast, if_pos (by omega)]
      exact hi
  · rw [List.getElem?_dropLast] at hx
    split_ifs at hx
    exact h.index_eq src i x hx

/-- Moving the last token into the freed place. -/
theorem swapPop (h : Enumerates owners tokens index) {id last : ℕ} {src : Address}
    (howner : owners id = src) (hsrc : src ≠ 0)
    (hlast : (tokens src)[(tokens src).length - 1]? = some last)
    (hne : index id ≠ (tokens src).length - 1) :
    Enumerates (update owners id 0)
      (update tokens src ((tokens src).set (index id) last).dropLast)
      (update index last (index id)) := by
  have hmem := (h.mem_iff src id).mpr ⟨hsrc, howner⟩
  obtain ⟨j, hj⟩ := List.mem_iff_getElem?.mp hmem
  have hjindex := h.index_eq src j id hj
  have hjlt := (List.getElem?_eq_some_iff.mp hj).1
  have hlastIndex := h.index_eq src _ last hlast
  have hget (i : ℕ) : ((tokens src).set (index id) last).dropLast[i]? =
      if i < (tokens src).length - 1 then
        if i = index id then some last else (tokens src)[i]?
      else none := by
    rw [List.getElem?_dropLast, List.length_set]
    split_ifs with hlt hi
    · rw [hi, List.getElem?_set_self (by omega)]
    · rw [List.getElem?_set_ne (Ne.symm hi)]
    · rfl
  refine h.replace howner hsrc (fun x ↦ ?_) (fun i x hx ↦ ?_) fun x hx ↦ ?_
  · rw [List.mem_iff_getElem?]
    constructor
    · rintro ⟨i, hi⟩
      rw [hget] at hi
      split_ifs at hi with hlt heq
      · obtain rfl := Option.some.inj hi
        refine ⟨List.mem_of_getElem? hlast, ?_⟩
        rintro rfl
        exact hne hlastIndex
      · refine ⟨List.mem_of_getElem? hi, ?_⟩
        rintro rfl
        exact heq (h.index_eq src i x hi).symm
    · rintro ⟨hx, hxid⟩
      obtain ⟨i, hi⟩ := List.mem_iff_getElem?.mp hx
      have hilt := (List.getElem?_eq_some_iff.mp hi).1
      have hindex := h.index_eq src i x hi
      by_cases hend : i = (tokens src).length - 1
      · refine ⟨index id, ?_⟩
        rw [hget, if_pos (by omega), if_pos rfl, ← hlast, ← hend, hi]
      · refine ⟨i, ?_⟩
        rw [hget, if_pos (by omega), if_neg ?_]
        · exact hi
        · intro heq
          rw [heq, hjindex, hj] at hi
          exact hxid (Option.some.inj hi).symm
  · rw [hget] at hx
    split_ifs at hx with hlt heq
    · obtain rfl := Option.some.inj hx
      rw [update_self, heq]
    · have hindex := h.index_eq src i x hx
      have hxlast : x ≠ last := by
        rintro rfl
        omega
      rw [update_of_ne hxlast, hindex]
  · have hxlast : x ≠ last := by
      rintro rfl
      exact hx (List.mem_of_getElem? hlast)
    rw [update_of_ne hxlast]

/-- Only the indices of listed tokens count. -/
theorem reindex (h : Enumerates owners tokens index) {index' : ℕ → ℕ}
    (hsame : ∀ u, ∀ id ∈ tokens u, index' id = index id) : Enumerates owners tokens index' := by
  refine ⟨h.mem_iff, fun u i id hid ↦ ?_⟩
  rw [hsame u id (List.mem_of_getElem? hid)]
  exact h.index_eq u i id hid

end Enumerates

namespace VeState

variable {s s' : VeState}

/-- The enumeration of the contract agrees with its owners. -/
def Enumerated (s : VeState) : Prop := Enumerates s.owners s.ownedTokens s.ownedTokensIndex

theorem Enumerated.congr (h : s.Enumerated) (howners : s'.owners = s.owners)
    (htokens : s'.ownedTokens = s.ownedTokens) (hindex : s'.ownedTokensIndex = s.ownedTokensIndex) :
    s'.Enumerated := by
  unfold Enumerated
  rw [howners, htokens, hindex]
  exact h

/-- Taking the token out of its owner's list; `s₁` already records the new
owner. -/
theorem Enumerated.remove {s₁ : VeState} {tokenId : ℕ} (h : s.Enumerated)
    (howner : s.owners tokenId ≠ 0) (htokens : s₁.ownedTokens = s.ownedTokens)
    (hindex : s₁.ownedTokensIndex = s.ownedTokensIndex) :
    Returns (fun s' ↦ s'.owners = s₁.owners ∧
        Enumerates (update s.owners tokenId 0) s'.ownedTokens s'.ownedTokensIndex)
      (s₁.removeTokenFromOwnerEnumeration (s.owners tokenId) tokenId) := by
  unfold removeTokenFromOwnerEnumeration
  rw [htokens, hindex]
  have hmem := (h.mem_iff _ tokenId).mpr ⟨howner, rfl⟩
  refine Outcome.usub_bind trivial fun hpos ↦ ?_
  dsimp only
  split_ifs with hne
  · refine Returns.guard fun _ ↦ ⟨rfl, ?_⟩
    refine Enumerates.swapPop h rfl howner ?_ hne
    rw [List.getD_eq_getElem?_getD, List.getElem?_eq_getElem (by omega)]
    rfl
  · exact ⟨rfl, Enumerates.pop h rfl howner (not_not.mp hne)⟩

theorem Enumerated.updateEnumeration {dst : Address} {tokenId : ℕ} (h : s.Enumerated) :
    Returns (fun s' ↦ s'.Enumerated)
      ((s.baseUpdate dst tokenId).updateEnumeration (s.owners tokenId) dst tokenId) := by
  unfold VeState.updateEnumeration
  refine Returns.guard fun _ ↦ ?_
  have hadd (s₁ : VeState) (howners : s₁.owners = update s.owners tokenId dst)
      (h₁ : Enumerates (update s.owners tokenId 0) s₁.ownedTokens s₁.ownedTokensIndex) :
      Enumerated (if dst ≠ 0 then s₁.addTokenToOwnerEnumeration dst tokenId else s₁) := by
    split_ifs with hdst
    · have := h₁.add (update_self tokenId 0 s.owners) hdst
      rw [update_idem] at this
      unfold Enumerated
      rw [show (s₁.addTokenToOwnerEnumeration dst tokenId).owners = _ from howners]
      exact this
    · unfold Enumerated
      rw [howners, not_not.mp hdst]
      exact h₁
  dsimp only
  by_cases howner : s.owners tokenId = 0
  · rw [if_neg (not_not.mpr howner)]
    refine hadd _ rfl ?_
    rw [← howner, update_eq_self]
    exact h
  · rw [if_pos howner]
    refine Outcome.bind (h.remove howner rfl rfl) ?_
    rintro s₁ ⟨howners, h₁⟩
    exact hadd s₁ howners h₁

theorem Enumerated.mint {dst : Address} {tokenId : ℕ} (h : s.Enumerated) :
    Returns (fun s' ↦ s'.Enumerated) (s.mint dst tokenId) := by
  unfold VeState.mint
  refine Returns.guard fun _ ↦ ?_
  exact Outcome.bind h.updateEnumeration fun s' hs' ↦ Returns.guard fun _ ↦ hs'

theorem Enumerated.burn {tokenId : ℕ} (h : s.Enumerated) :
    Returns (fun s' ↦ s'.Enumerated) (s.burn tokenId) := by
  unfold VeState.burn
  exact Outcome.bind h.updateEnumeration fun s' hs' ↦ Returns.guard fun _ ↦ hs'

end VeState

/-! ## Changes of the lock table -/

/-- The lock weighs the same as before. -/
structure Lock.SameWeight (l l' : Lock) : Prop where
  amount : l'.amount = l.amount
  lockEnd : l'.lockEnd = l.lockEnd
  autoMax : l'.autoMax = l.autoMax

/-- Every lock keeps its weight and its holder, or is gone, or belongs to a
holder that has been settled.  A lock that does not keep them was empty, or its
former holder had been settled, or was the Furnace. -/
structure LockChange (settled : Address → Prop) (s s' : VeState) : Prop where
  finite : FiniteLocks s.locks → FiniteLocks s'.locks
  enumerated : s.Enumerated → s'.Enumerated
  each : ∀ id, ((s.locks id).SameWeight (s'.locks id) ∧ s'.owners id = s.owners id) ∨
    (s'.locks id).amount = 0 ∨ settled (s'.owners id)
  left : ∀ id, ((s.locks id).SameWeight (s'.locks id) ∧ s'.owners id = s.owners id) ∨
    (s.locks id).amount = 0 ∨ settled (s.owners id) ∨ s.owners id = s.furnace

namespace LockChange

variable {settled : Address → Prop} {s s' : VeState} {l : Lock}

theorem of_same (hlocks : s'.locks = s.locks) (howners : s'.owners = s.owners)
    (htokens : s'.ownedTokens = s.ownedTokens)
    (hindex : s'.ownedTokensIndex = s.ownedTokensIndex) : LockChange settled s s' where
  finite h := hlocks ▸ h
  enumerated h := h.congr howners htokens hindex
  each id := Or.inl ⟨by rw [hlocks]; exact ⟨rfl, rfl, rfl⟩, congrFun howners id⟩
  left id := Or.inl ⟨by rw [hlocks]; exact ⟨rfl, rfl, rfl⟩, congrFun howners id⟩

/-- Writing one lock of a settled holder. -/
theorem write (tokenId : ℕ) (hsettled : settled (s.owners tokenId))
    (hlocks : s'.locks = update s.locks tokenId l) (howners : s'.owners = s.owners)
    (htokens : s'.ownedTokens = s.ownedTokens)
    (hindex : s'.ownedTokensIndex = s.ownedTokensIndex) : LockChange settled s s' where
  finite h := hlocks ▸ h.update tokenId l
  enumerated h := h.congr howners htokens hindex
  each id := by
    by_cases hid : id = tokenId
    · rw [howners, hid]
      exact Or.inr (Or.inr hsettled)
    · rw [hlocks, update_of_ne hid, howners]
      exact Or.inl ⟨⟨rfl, rfl, rfl⟩, rfl⟩
  left id := by
    by_cases hid : id = tokenId
    · rw [hid]
      exact Or.inr (Or.inr (Or.inl hsettled))
    · rw [hlocks, update_of_ne hid, howners]
      exact Or.inl ⟨⟨rfl, rfl, rfl⟩, rfl⟩

theorem same_of_restyle {tokenId : ℕ} (hweight : (s.locks tokenId).SameWeight l)
    (hlocks : s'.locks = update s.locks tokenId l) (id : ℕ) :
    (s.locks id).SameWeight (s'.locks id) := by
  rw [hlocks]
  by_cases hid : id = tokenId
  · rw [hid, update_self]
    exact hweight
  · rw [update_of_ne hid]
    exact ⟨rfl, rfl, rfl⟩

/-- Writing a lock that weighs the same. -/
theorem restyle (tokenId : ℕ) (hweight : (s.locks tokenId).SameWeight l)
    (hlocks : s'.locks = update s.locks tokenId l) (howners : s'.owners = s.owners)
    (htokens : s'.ownedTokens = s.ownedTokens)
    (hindex : s'.ownedTokensIndex = s.ownedTokensIndex) : LockChange settled s s' where
  finite h := hlocks ▸ h.update tokenId l
  enumerated h := h.congr howners htokens hindex
  each id := Or.inl ⟨same_of_restyle hweight hlocks id, congrFun howners id⟩
  left id := Or.inl ⟨same_of_restyle hweight hlocks id, congrFun howners id⟩

/-- Giving a token of a settled holder to another one, with the lock it has
there. -/
theorem give {tokenId : ℕ} {dst : Address} (henumerated : s.Enumerated → s'.Enumerated)
    (hsettled : settled dst)
    (hformer : (s.locks tokenId).amount = 0 ∨ settled (s.owners tokenId))
    (howners : s'.owners = update s.owners tokenId dst)
    (hlocks : s'.locks = update s.locks tokenId l) : LockChange settled s s' where
  finite h := hlocks ▸ h.update tokenId l
  enumerated := henumerated
  each id := by
    rw [howners, hlocks]
    by_cases hid : id = tokenId
    · rw [hid, update_self, update_self]
      exact Or.inr (Or.inr hsettled)
    · rw [update_of_ne hid, update_of_ne hid]
      exact Or.inl ⟨⟨rfl, rfl, rfl⟩, rfl⟩
  left id := by
    by_cases hid : id = tokenId
    · rw [hid]
      exact Or.inr (hformer.imp_right Or.inl)
    · rw [howners, hlocks, update_of_ne hid, update_of_ne hid]
      exact Or.inl ⟨⟨rfl, rfl, rfl⟩, rfl⟩

theorem trans {s'' : VeState} (h : LockChange settled s s') (h' : LockChange settled s' s'')
    (hfurnace : s'.furnace = s.furnace) : LockChange settled s s'' where
  finite hs := h'.finite (h.finite hs)
  enumerated hs := h'.enumerated (h.enumerated hs)
  each id := by
    rcases h'.each id with ⟨hweight', howner'⟩ | hgone | hsettled
    · rcases h.each id with ⟨hweight, howner⟩ | hgone | hsettled
      · exact Or.inl ⟨⟨hweight'.amount.trans hweight.amount,
          hweight'.lockEnd.trans hweight.lockEnd, hweight'.autoMax.trans hweight.autoMax⟩,
          howner'.trans howner⟩
      · exact Or.inr (Or.inl (hweight'.amount.trans hgone))
      · exact Or.inr (Or.inr (howner' ▸ hsettled))
    · exact Or.inr (Or.inl hgone)
    · exact Or.inr (Or.inr hsettled)
  left id := by
    rcases h.left id with ⟨hweight, howner⟩ | hleft
    · rcases h'.left id with ⟨hweight', howner'⟩ | hempty | hsettled | hburned
      · exact Or.inl ⟨⟨hweight'.amount.trans hweight.amount,
          hweight'.lockEnd.trans hweight.lockEnd, hweight'.autoMax.trans hweight.autoMax⟩,
          howner'.trans howner⟩
      · exact Or.inr (Or.inl (hweight.amount.symm.trans hempty))
      · exact Or.inr (Or.inr (Or.inl (howner ▸ hsettled)))
      · exact Or.inr (Or.inr (Or.inr ((howner.symm.trans hburned).trans hfurnace)))
    · exact Or.inr hleft

/-- Burning a token of a settled holder, or of the Furnace. -/
theorem burn {tokenId : ℕ} (henumerated : s.Enumerated → s'.Enumerated)
    (hformer : (s.locks tokenId).amount = 0 ∨ settled (s.owners tokenId) ∨
      s.owners tokenId = s.furnace)
    (howners : s'.owners = update s.owners tokenId 0)
    (hlocks : s'.locks = update s.locks tokenId {}) : LockChange settled s s' where
  finite h := hlocks ▸ h.update tokenId {}
  enumerated := henumerated
  each id := by
    rw [howners, hlocks]
    by_cases hid : id = tokenId
    · rw [hid, update_self]
      exact Or.inr (Or.inl rfl)
    · rw [update_of_ne hid, update_of_ne hid]
      exact Or.inl ⟨⟨rfl, rfl, rfl⟩, rfl⟩
  left id := by
    by_cases hid : id = tokenId
    · rw [hid]
      exact Or.inr hformer
    · rw [howners, hlocks, update_of_ne hid, update_of_ne hid]
      exact Or.inl ⟨⟨rfl, rfl, rfl⟩, rfl⟩

end LockChange

/-- `s'` has the locks, the owners, the enumeration and the Furnace of `s`. -/
structure SameTable (s s' : VeState) : Prop where
  furnace : s'.furnace = s.furnace
  locks : s'.locks = s.locks
  owners : s'.owners = s.owners
  ownedTokens : s'.ownedTokens = s.ownedTokens
  ownedTokensIndex : s'.ownedTokensIndex = s.ownedTokensIndex

theorem SameTable.change {settled : Address → Prop} {s s' : VeState} (h : SameTable s s') :
    LockChange settled s s' :=
  .of_same h.locks h.owners h.ownedTokens h.ownedTokensIndex

theorem checkpointGlobal_table (s : VeState) (nowTs : ℕ) :
    Returns (SameTable s) (s.checkpointGlobalStateInternal nowTs) :=
  Returns.seq fun _ _ ↦ ⟨rfl, rfl, rfl, rfl, rfl⟩

theorem mint_table (s : VeState) (dst : Address) (tokenId : ℕ) :
    Returns (fun s' ↦ Assigned s s' tokenId dst ∧ s'.locks = s.locks ∧
      (s.Enumerated → s'.Enumerated)) (s.mint dst tokenId) := by
  rw [Returns.iff_forall]
  intro s' hs'
  obtain ⟨-, hassigned, hlocks⟩ := (mint_spec dst tokenId).of_ok hs'
  exact ⟨hassigned, hlocks, fun h ↦ h.mint.of_ok hs'⟩

theorem burn_table (settled : Address → Prop) (s : VeState) {s₁ : VeState}
    (h : LockChange settled s s₁) (hfurnace : s₁.furnace = s.furnace) (tokenId : ℕ)
    (hformer : (s₁.locks tokenId).amount = 0 ∨ settled (s₁.owners tokenId) ∨
      s₁.owners tokenId = s₁.furnace) :
    Returns (LockChange settled s) (s₁.burn tokenId) := by
  rw [Returns.iff_forall]
  intro s' hs'
  obtain ⟨hassigned, hlocks⟩ := (burn_spec tokenId).of_ok hs'
  exact h.trans (.burn (fun h ↦ h.burn.of_ok hs') hformer hassigned.owners hlocks) hfurnace

theorem LockChange.emit {settled : Address → Prop} {s s' : VeState} (h : LockChange settled s s')
    (e : Event) : LockChange settled s (s'.emit e) :=
  ⟨h.finite, fun henum ↦ (h.enumerated henum).congr rfl rfl rfl, h.each, h.left⟩

/-! ## What a lock operation does to the holdings -/

/-- A relation that royalties checkpoints, pins and permitted lock changes
satisfy, for a royalties contract that settles a holder at each checkpoint. -/
structure HoldingRules {S : Type} (port : IShareholderRoyalties S) (settled : S → Address → Prop)
    (R : VeState × S → VeState × S → Prop) : Prop where
  refl : ∀ x, R x x
  trans : ∀ {x y z}, R x y → R y z → R x z
  lock : ∀ {s s' : VeState} {r : S}, LockChange (settled r) s s' → R (s, r) (s', r)
  checkpointUser : ∀ {sr t : ℕ} {s : VeState} {user : Address} {r r' : S}, user ≠ 0 →
    port.checkpointUser sr t s user r = some r' →
    R (s, r) (s, r') ∧ settled r' user ∧ ∀ v, settled r v → settled r' v
  pinUserObservedMin : ∀ {sr t : ℕ} {s : VeState} {user : Address} {r r' : S},
    port.pinUserObservedMin sr t s user r = some r' → R (s, r) (s, r')

namespace World

variable {S : Type}

/-- The part of the world that holdings and royalties live in. -/
def holdings (w : World S) : VeState × S := (w.ve, w.royalties)

end World

section Operations

variable {S : Type} {port : IShareholderRoyalties S} {settled : S → Address → Prop}
  {R : VeState × S → VeState × S → Prop} (rules : HoldingRules port settled R) (call : Call)
  {w : World S}

/-- A lock that can be mutated has a holder, so its checkpoint settles it. -/
theorem settled_of_mutable {settled : S → Address → Prop} (h : Sound w call.timestamp)
    {user : Address} {tokenId : ℕ} (howner : w.ve.owners tokenId = user)
    (hmutable : (w.ve.locks tokenId).autoMax = false →
      call.timestamp < (w.ve.locks tokenId).lockEnd) {w' : World S}
    (hsettled : user ≠ 0 → settled w'.royalties user) : settled w'.royalties user :=
  hsettled (howner ▸ h.accounted.owned_of_mutable hmutable)

include rules

theorem checkpointRoyalties_rule (user : Address) :
    Returns (fun w' ↦ w'.ve = w.ve ∧ R w.holdings w'.holdings ∧
        (user ≠ 0 → settled w'.royalties user) ∧
        ∀ v, settled w.royalties v → settled w'.royalties v)
      (checkpointShareholderRoyalties call port w user) := by
  unfold checkpointShareholderRoyalties
  split_ifs with huser
  · exact ⟨rfl, rules.refl _, fun h ↦ absurd huser h, fun _ ↦ id⟩
  · refine Returns.seq fun sr _ ↦ Returns.seq fun _ _ ↦ ?_
    refine (Outcome.bind_iff _ _).mpr ((outcome_externalCall _).mpr ⟨fun r' hr' ↦ ?_, ?_⟩)
    swap
    · exact fun _ ↦ trivial
    obtain ⟨hrel, hsettled, hkeep⟩ := rules.checkpointUser huser hr'
    exact ⟨rfl, hrel, fun _ ↦ hsettled, hkeep⟩

theorem bestEffort_rule (user : Address) :
    SameTable w.ve (checkpointShareholderRoyaltiesBestEffort call port w user).ve ∧
      R w.holdings (checkpointShareholderRoyaltiesBestEffort call port w user).holdings := by
  unfold checkpointShareholderRoyaltiesBestEffort
  dsimp only
  split_ifs with huser
  · exact ⟨⟨rfl, rfl, rfl, rfl, rfl⟩, rules.refl _⟩
  · split
    · next r' hr' =>
        have hne : user ≠ 0 := fun h ↦ huser (Or.inl h)
        exact ⟨⟨rfl, rfl, rfl, rfl, rfl⟩, (rules.checkpointUser hne hr').1⟩
    · exact ⟨⟨rfl, rfl, rfl, rfl, rfl⟩, rules.lock (.of_same rfl rfl rfl rfl)⟩

theorem pin_rule (user : Address) :
    R w.holdings (pinShareholderObservedMin call port w user).holdings := by
  unfold pinShareholderObservedMin
  dsimp only
  split_ifs
  · exact rules.refl _
  · split
    · next r' hr' => exact rules.pinUserObservedMin hr'
    · exact rules.refl _

theorem beginMutation_rule (user : Address) :
    Returns (fun w' ↦ SameTable w.ve w'.ve ∧ R w.holdings w'.holdings ∧
        (user ≠ 0 → settled w'.royalties user)) (beginMutation port call w user) := by
  unfold beginMutation
  refine Outcome.bind (checkpointGlobal_table _ _) fun s hs ↦ ?_
  refine (checkpointRoyalties_rule rules call user).weaken ?_
  rintro w' ⟨hve, hrel, hsettled, -⟩
  exact ⟨hve ▸ hs, rules.trans (rules.lock hs.change) hrel, hsettled⟩

/-- The lock table changes, and the holder is pinned again. -/
theorem mutate_rule {w' : World S} {s : VeState} (claim : ClaimToken) (user : Address)
    (hbegin : R w.holdings w'.holdings) (hchange : LockChange (settled w'.royalties) w'.ve s) :
    R w.holdings
      (pinShareholderObservedMin call port ⟨s, w'.royalties, claim⟩ user).holdings :=
  rules.trans hbegin (rules.trans (rules.lock hchange)
    (pin_rule rules call user (w := ⟨s, w'.royalties, claim⟩)))

theorem createLock_rule (h : Sound w call.timestamp) (payer user : Address)
    (amount duration : ℕ) (autoMax : Bool) :
    Returns (fun w' ↦ R w.holdings w'.holdings)
      (createLock port call w payer user amount duration autoMax) := by
  unfold createLock
  refine Returns.guard fun huser ↦ Returns.guard fun _ ↦ Returns.guard fun _ ↦ ?_
  refine Returns.guard fun _ ↦ Returns.guard fun _ ↦ Returns.guard fun _ ↦ ?_
  refine Returns.seq fun _ _ ↦ ?_
  refine Outcome.bind ((beginMutation_rule rules call user).and
    (Returns.of_outcome (h.beginMutation port call user))) ?_
  rintro w' ⟨⟨-, hbegin, hsettled⟩, hopened⟩
  have hacc := hopened.sound.accounted
  have hunminted := congrArg Lock.amount (hacc.burned _ (hacc.fresh _ le_rfl))
  refine Returns.guard fun _ ↦ Returns.seq fun g _ ↦ Returns.seq fun _ _ ↦ ?_
  refine Returns.seq fun _ _ ↦ Outcome.bind (mint_table _ _ _) ?_
  rintro s ⟨hassigned, hlocks, henumerated⟩
  refine Returns.seq fun claim _ ↦ ?_
  refine mutate_rule rules call _ user hbegin ?_
  exact .give henumerated (hsettled huser) (Or.inl hunminted) hassigned.owners
    (congrArg (update · _ _) hlocks)

theorem addToLock_rule (payer user : Address) (tokenId amount : ℕ) :
    Returns (fun w' ↦ R w.holdings w'.holdings)
      (addToLock port call w payer user tokenId amount) := by
  unfold addToLock
  refine Returns.guard fun huser ↦ Returns.guard fun _ ↦ Returns.guard fun _ ↦ ?_
  refine Returns.guard fun howner ↦ Returns.seq fun _ _ ↦ ?_
  refine Outcome.bind (beginMutation_rule rules call user) ?_
  rintro w' ⟨htable, hbegin, hsettled⟩
  refine Returns.guard fun _ ↦ Returns.seq fun _ _ ↦ Returns.seq fun lockEnd _ ↦ ?_
  refine Returns.seq fun g _ ↦ Returns.seq fun _ _ ↦ Returns.seq fun claim _ ↦ ?_
  refine mutate_rule rules call _ user hbegin (.write tokenId ?_ rfl rfl rfl rfl)
  rw [htable.owners, not_not.mp howner]
  exact hsettled huser

theorem extendLockToInternal_rule (user : Address) (tokenId newEnd : ℕ) (huser : user ≠ 0)
    (howner : w.ve.owners tokenId = user) :
    Returns (fun w' ↦ R w.holdings w'.holdings)
      (extendLockToInternal port call w user tokenId newEnd) := by
  unfold extendLockToInternal
  refine Returns.guard fun _ ↦ Outcome.bind (beginMutation_rule rules call user) ?_
  rintro w' ⟨htable, hbegin, hsettled⟩
  refine Returns.guard fun _ ↦ Returns.seq fun g _ ↦ ?_
  refine mutate_rule rules call _ user hbegin (.write tokenId ?_ rfl rfl rfl rfl)
  rw [htable.owners, howner]
  exact hsettled huser

theorem extendLockToFor_rule (user : Address) (tokenId newEnd : ℕ) :
    Returns (fun w' ↦ R w.holdings w'.holdings)
      (extendLockToFor port call w user tokenId newEnd) := by
  unfold extendLockToFor
  refine Returns.seq fun _ _ ↦ Returns.guard fun huser ↦ Returns.guard fun howner ↦ ?_
  refine Returns.seq fun _ _ ↦ ?_
  dsimp only
  split_ifs
  · refine Outcome.bind (beginMutation_rule rules call user) ?_
    rintro w' ⟨htable, hbegin, hsettled⟩
    refine Returns.seq fun targetEnd _ ↦ rules.trans hbegin (rules.lock ?_)
    refine .write tokenId ?_ rfl rfl rfl rfl
    rw [htable.owners, not_not.mp howner]
    exact hsettled huser
  · refine Returns.guard fun _ ↦ Returns.seq fun _ _ ↦ Returns.guard fun _ ↦ ?_
    exact extendLockToInternal_rule rules call user tokenId newEnd huser (not_not.mp howner)

theorem mergeLocksInternal_rule (h : Sound w call.timestamp) (user : Address)
    (fromTokenId intoTokenId : ℕ) :
    Returns (fun w' ↦ R w.holdings w'.holdings)
      (mergeLocksInternal port call w user fromTokenId intoTokenId) := by
  unfold mergeLocksInternal
  refine Returns.guard fun _ ↦ ?_
  refine Outcome.bind (Returns.of_outcome (requireOwnedLock_spec _ _ _)) ?_
  rintro _ ⟨hfrom, -⟩
  refine Outcome.bind (Returns.of_outcome (requireOwnedLock_spec _ _ _)) ?_
  rintro _ ⟨howner, rfl⟩
  refine Returns.seq fun _ _ ↦ ?_
  refine Outcome.bind (Returns.of_outcome (requireMutable_spec _ _)) ?_
  rintro _ ⟨-, hmutable⟩
  refine Outcome.bind (beginMutation_rule rules call user) ?_
  rintro w' ⟨htable, hbegin, hsettled⟩
  have hsettled := settled_of_mutable call h howner hmutable hsettled
  refine Returns.guard fun _ ↦ Returns.seq fun _ _ ↦ Returns.seq fun _ _ ↦ ?_
  refine Returns.seq fun g _ ↦ ?_
  have howner' : settled w'.royalties (w'.ve.owners intoTokenId) := by
    rw [htable.owners, howner]
    exact hsettled
  have hfrom' : settled w'.royalties (w'.ve.owners fromTokenId) := by
    rw [htable.owners, hfrom]
    exact hsettled
  refine Outcome.bind (burn_table (settled w'.royalties) w'.ve ?_ ?_ _ ?_) fun s hs ↦ ?_
  · exact .write intoTokenId howner' rfl rfl rfl rfl
  · rfl
  · exact Or.inr (Or.inl hfrom')
  · exact mutate_rule rules call _ user hbegin ((hs.emit _).emit _)

theorem setAutoMax_rule (h : Sound w call.timestamp) (tokenId : ℕ) (enabled : Bool) :
    Returns (fun w' ↦ R w.holdings w'.holdings) (setAutoMax port call w tokenId enabled) := by
  unfold setAutoMax
  refine Outcome.bind (Returns.of_outcome (requireOwnedLock_spec _ _ _)) ?_
  rintro _ ⟨howner, rfl⟩
  refine Outcome.bind (Returns.of_outcome (requireMutable_spec _ _)) ?_
  rintro _ ⟨-, hmutable⟩
  dsimp only
  split_ifs
  · refine Outcome.bind (beginMutation_rule rules call _) ?_
    rintro w' ⟨htable, hbegin, hsettled⟩
    have hsettled := settled_of_mutable call h howner hmutable hsettled
    refine Returns.guard fun _ ↦ Returns.seq fun lockEnd _ ↦ rules.trans hbegin (rules.lock ?_)
    refine .write tokenId ?_ rfl rfl rfl rfl
    rw [htable.owners, howner]
    exact hsettled
  · exact rules.refl _
  · refine Outcome.bind (beginMutation_rule rules call _) ?_
    rintro w' ⟨htable, hbegin, hsettled⟩
    have hsettled := settled_of_mutable call h howner hmutable hsettled
    refine Returns.guard fun _ ↦ Returns.seq fun lockEnd _ ↦ Returns.seq fun g _ ↦ ?_
    refine mutate_rule rules call _ _ hbegin (.write tokenId ?_ rfl rfl rfl rfl)
    rw [htable.owners, howner]
    exact hsettled

theorem unlockTo_rule (h : Sound w call.timestamp) (tokenOwner : Address) (tokenId : ℕ)
    (recipient : Address) : Returns (fun w' ↦ R w.holdings w'.holdings)
      (unlockTo port call w tokenOwner tokenId recipient) := by
  unfold unlockTo
  refine Returns.guard fun _ ↦ ?_
  refine Outcome.bind (Returns.of_outcome (requireOwnedLock_spec _ _ _)) ?_
  rintro _ ⟨howner, -⟩
  refine Returns.guard fun _ ↦ Returns.guard fun _ ↦ Returns.guard fun _ ↦ ?_
  refine Outcome.bind (beginMutation_rule rules call _) ?_
  rintro w' ⟨htable, hbegin, hsettled⟩
  refine Returns.guard fun _ ↦ Returns.seq fun g _ ↦ Returns.seq fun _ _ ↦ ?_
  refine Outcome.bind (burn_table (settled w'.royalties) w'.ve ?_ ?_ _ ?_) fun s hs ↦ ?_
  · exact .of_same rfl rfl rfl rfl
  · rfl
  · change (w'.ve.locks tokenId).amount = 0 ∨ settled _ (w'.ve.owners tokenId) ∨ _
    rw [htable.locks, htable.owners, howner]
    by_cases hnone : tokenOwner = 0
    · exact Or.inl (congrArg Lock.amount (h.accounted.burned tokenId (howner.trans hnone)))
    · exact Or.inr (Or.inl (hsettled hnone))
  refine Returns.seq fun claim _ ↦ ?_
  have hmutate := mutate_rule rules call w'.claim tokenOwner hbegin hs
  exact rules.trans hmutate (rules.lock (.of_same rfl rfl rfl rfl))

theorem furnaceBurnAndWithdraw_rule (tokenId : ℕ) (recipient : Address) :
    Returns (fun w' ↦ R w.holdings w'.holdings)
      (furnaceBurnAndWithdraw port call w tokenId recipient) := by
  unfold furnaceBurnAndWithdraw
  refine Returns.seq fun _ _ ↦ Returns.guard fun _ ↦ Returns.guard fun howner ↦ ?_
  refine Returns.guard fun _ ↦ Outcome.bind (checkpointGlobal_table _ _) fun s₀ hs₀ ↦ ?_
  obtain ⟨htable, hbest⟩ := bestEffort_rule rules call (w := { w with ve := s₀ }) s₀.furnace
  dsimp only
  generalize checkpointShareholderRoyaltiesBestEffort call port { w with ve := s₀ } s₀.furnace =
    w' at htable hbest ⊢
  have hbegin : R w.holdings w'.holdings := rules.trans (rules.lock hs₀.change) hbest
  refine Returns.guard fun _ ↦ Returns.seq fun g _ ↦ Returns.seq fun _ _ ↦ ?_
  refine Outcome.bind (burn_table (settled w'.royalties) w'.ve ?_ ?_ _ ?_) fun s hs ↦ ?_
  · exact .of_same rfl rfl rfl rfl
  · rfl
  · refine Or.inr (Or.inr ?_)
    change w'.ve.owners tokenId = w'.ve.furnace
    rw [htable.owners, htable.furnace, hs₀.owners, hs₀.furnace]
    exact not_not.mp howner
  refine Returns.seq fun claim _ ↦ ?_
  have hmutate := mutate_rule rules call w'.claim s.furnace hbegin hs
  exact rules.trans hmutate (rules.lock (.of_same rfl rfl rfl rfl))

theorem transferFrom_rule (src dst : Address) (tokenId : ℕ) :
    Returns (fun w' ↦ R w.holdings w'.holdings) (transferFrom port call w src dst tokenId) := by
  unfold transferFrom
  refine Returns.guard fun hdst ↦ Returns.guard fun howned ↦ ?_
  refine Outcome.bind (checkpointGlobal_table _ _) fun s₀ hs₀ ↦ Returns.guard fun _ ↦ ?_
  refine Outcome.bind (checkpointRoyalties_rule rules call _) ?_
  rintro w₁ ⟨hve₁, hrel₁, hsettled₁, -⟩
  refine Outcome.bind (checkpointRoyalties_rule rules call _) ?_
  rintro w₂ ⟨hve₂, hrel₂, hsettled, hkeep⟩
  have hve : w₂.ve = s₀ := hve₂.trans hve₁
  have hbegin : R w.holdings w₂.holdings :=
    rules.trans (rules.lock hs₀.change) (rules.trans hrel₁ hrel₂)
  refine Returns.seq fun _ _ ↦ Returns.guard fun _ ↦ Returns.guard fun _ ↦ ?_
  refine Outcome.bind (Returns.iff_forall.mpr fun s hs ↦ hs) fun s hs ↦ ?_
  rw [← hs₀.owners, ← hve] at hs
  obtain ⟨hassigned, hlocks⟩ := (transferOwnership_spec _ _ _).of_ok hs
  refine Returns.guard fun _ ↦ ?_
  have hformer : settled w₂.royalties (w₂.ve.owners tokenId) := by
    rw [hve, hs₀.owners]
    exact hkeep _ (hsettled₁ howned)
  have hchange : LockChange (settled w₂.royalties) w₂.ve s :=
    .give (l := w₂.ve.locks tokenId) (fun h ↦ h.updateEnumeration.of_ok hs) (hsettled hdst)
      (Or.inr hformer) hassigned.owners (by rw [hlocks, update_eq_self])
  have hmutate := mutate_rule rules call w₂.claim (w.ve.owners tokenId) hbegin hchange
  exact rules.trans hmutate (pin_rule rules call dst)

theorem setListed_rule (tokenId : ℕ) (listed : Bool) :
    Returns (fun w' ↦ R w.holdings w'.holdings) (setListed call w tokenId listed) := by
  have hrestyle (flag : Bool) : LockChange (settled w.royalties) w.ve
      ((w.ve.setLock tokenId { w.ve.locks tokenId with listed := flag }).emit
        (.MetadataUpdate tokenId)) := by
    refine .restyle tokenId ?_ rfl rfl rfl rfl
    exact ⟨rfl, rfl, rfl⟩
  unfold setListed
  refine Returns.seq fun _ _ ↦ Returns.guard fun _ ↦ ?_
  dsimp only
  split_ifs
  · exact Returns.guard fun _ ↦ Returns.guard fun _ ↦ rules.lock (hrestyle true)
  · exact rules.lock (hrestyle false)

/-- Every operation of the lock contract satisfies the relation. -/
theorem exec_rule (h : Sound w call.timestamp) (op : Op) :
    Returns (fun w' ↦ R w.holdings w'.holdings) (exec port call w op) := by
  cases op with
  | createLockFor user amount duration autoMax =>
      exact Returns.seq fun _ _ ↦ createLock_rule rules call h _ _ _ _ _
  | addToLockFor user tokenId amount =>
      exact Returns.seq fun _ _ ↦ addToLock_rule rules call _ _ _ _
  | extendLockToFor user tokenId newEnd => exact extendLockToFor_rule rules call _ _ _
  | mergeLocksFor user fromTokenId intoTokenId =>
      exact Returns.seq fun _ _ ↦ mergeLocksInternal_rule rules call h _ _ _
  | setAutoMax tokenId enabled => exact setAutoMax_rule rules call h _ _
  | unlock tokenId => exact unlockTo_rule rules call h _ _ _
  | unlockExpiredForUser user tokenId =>
      refine Returns.seq fun _ _ ↦ Outcome.bind (unlockTo_rule rules call h _ _ _) fun w' hw' ↦ ?_
      exact rules.trans hw' (rules.lock (.of_same rfl rfl rfl rfl))
  | furnaceBurnAndWithdraw tokenId recipient =>
      exact furnaceBurnAndWithdraw_rule rules call _ _
  | transferFrom src dst tokenId => exact transferFrom_rule rules call _ _ _
  | safeTransferFrom src dst tokenId =>
      refine Outcome.bind (transferFrom_rule rules call _ _ _) fun w' hw' ↦ ?_
      exact Returns.guard fun _ ↦ hw'
  | setListed tokenId listed => exact setListed_rule rules call _ _
  | checkpointGlobalState =>
      exact Outcome.bind (checkpointGlobal_table _ _) fun s hs ↦ rules.lock hs.change
  | setMineMarket mineMarket =>
      refine Returns.guard fun _ ↦ Returns.guard fun _ ↦ Returns.guard fun _ ↦ ?_
      refine Returns.guard fun _ ↦ Returns.guard fun _ ↦ Returns.seq fun _ _ ↦ ?_
      exact rules.lock (.of_same rfl rfl rfl rfl)
  | setFurnace furnace =>
      refine Returns.guard fun _ ↦ Returns.guard fun _ ↦ Returns.guard fun _ ↦ ?_
      refine Returns.guard fun _ ↦ Returns.guard fun _ ↦ Returns.seq fun _ _ ↦ ?_
      exact rules.lock (.of_same rfl rfl rfl rfl)
  | freezeConfig =>
      have hfrozen : R w.holdings
          (World.mk ({ w.ve with configFrozen := true }.emit .ConfigFrozen) w.royalties
            w.claim).holdings := rules.lock (.of_same rfl rfl rfl rfl)
      refine Returns.guard fun _ ↦ Returns.guard fun _ ↦ Returns.guard fun _ ↦ ?_
      refine Returns.guard fun _ ↦ Returns.seq fun _ _ ↦ Returns.guard fun _ ↦ ?_
      refine Returns.seq fun sr _ ↦ ?_
      dsimp only
      split_ifs
      · exact Returns.guard fun _ ↦ Returns.guard fun _ ↦ hfrozen
      · exact hfrozen

end Operations

end ClaimRush.VeClaimNFT
