import ClaimRush.VeClaimNFT.Holdings

/-!
# Ids listed by user

The router keeps an array of listed tokens and an array of open offers for each
user.  One global map records the position of each id plus one, whoever's array
it stands in, and an id is removed by moving the last one into its place.
-/

open Function

namespace ClaimRush.MarketRouter

open VeClaimNFT (Enumerates)

/-- Per-user arrays and the position plus one of each id, `0` for an absent id. -/
structure UserIds where
  ids : Address → List ℕ
  indexPlusOne : ℕ → ℕ

namespace UserIds

def empty : UserIds := ⟨fun _ ↦ [], fun _ ↦ 0⟩

def add (l : UserIds) (user : Address) (id : ℕ) : UserIds :=
  if l.indexPlusOne id ≠ 0 then l
  else
    { ids := update l.ids user (l.ids user ++ [id])
      indexPlusOne := update l.indexPlusOne id ((l.ids user).length + 1) }

def remove (l : UserIds) (user : Address) (id : ℕ) : Except Error UserIds :=
  let idxPlusOne := l.indexPlusOne id
  if idxPlusOne = 0 then .ok l
  else do
    let idx := idxPlusOne - 1
    let lastIdx ← usub (l.ids user).length 1
    if idx ≠ lastIdx then
      revertIf ((l.ids user).length ≤ idx) .Panic
      let lastId := (l.ids user).getD lastIdx 0
      return {
        ids := update l.ids user ((l.ids user).set idx lastId).dropLast
        indexPlusOne := update (update l.indexPlusOne lastId (idx + 1)) id 0 }
    else
      return {
        ids := update l.ids user (l.ids user).dropLast
        indexPlusOne := update l.indexPlusOne id 0 }

/-- The arrays hold exactly the ids of their users, and the index is true. -/
structure Tracks (l : UserIds) (owner : ℕ → Address) : Prop where
  enumerates : Enumerates owner l.ids fun id ↦ l.indexPlusOne id - 1
  indexed : ∀ id, l.indexPlusOne id ≠ 0 ↔ owner id ≠ 0

variable {l : UserIds} {owner : ℕ → Address} {user : Address} {id : ℕ}

theorem empty_tracks : empty.Tracks fun _ ↦ 0 where
  enumerates := by
    refine ⟨fun u x ↦ ?_, fun u i x hx ↦ ?_⟩
    · simp only [empty, List.not_mem_nil, false_iff, not_and]
      exact fun hu heq ↦ hu heq.symm
    · simp [empty] at hx
  indexed _ := Iff.rfl

theorem Tracks.mem_iff (h : l.Tracks owner) : id ∈ l.ids user ↔ user ≠ 0 ∧ owner id = user :=
  h.enumerates.mem_iff user id

/-- The recorded index of an entry is its position plus one. -/
theorem Tracks.index_eq (h : l.Tracks owner) {i : ℕ} (hi : (l.ids user)[i]? = some id) :
    l.indexPlusOne id = i + 1 := by
  have hindex : l.indexPlusOne id - 1 = i := h.enumerates.index_eq user i id hi
  obtain ⟨huser, howner⟩ := h.mem_iff.mp (List.mem_of_getElem? hi)
  have hne : l.indexPlusOne id ≠ 0 := (h.indexed id).mpr (howner ▸ huser)
  omega

/-- An owned id is not added again. -/
theorem Tracks.add_owned (h : l.Tracks owner) (howner : owner id ≠ 0) : l.add user id = l :=
  if_pos ((h.indexed id).mpr howner)

theorem Tracks.add (h : l.Tracks owner) (hfree : owner id = 0) (huser : user ≠ 0) :
    (l.add user id).Tracks (update owner id user) := by
  have hindex : ¬ l.indexPlusOne id ≠ 0 := mt (h.indexed id).mp (not_not.mpr hfree)
  unfold UserIds.add
  rw [if_neg hindex]
  refine ⟨?_, fun x ↦ ?_⟩
  · convert h.enumerates.add hfree huser using 1
    funext x
    by_cases hx : x = id <;> simp [hx]
  · by_cases hx : x = id
    · simp [hx, huser]
    · simpa [hx] using h.indexed x

/-- The entry that takes the freed place: the last one, another than the removed. -/
theorem Tracks.last_ne (h : l.Tracks owner) (howner : owner id = user) (huser : user ≠ 0)
    (hne : l.indexPlusOne id - 1 ≠ (l.ids user).length - 1) :
    ∃ last, (l.ids user)[(l.ids user).length - 1]? = some last ∧ last ≠ id ∧
      l.indexPlusOne id - 1 < (l.ids user).length := by
  obtain ⟨i, hi⟩ := List.mem_iff_getElem?.mp (h.mem_iff.mpr ⟨huser, howner⟩)
  have hlt := (List.getElem?_eq_some_iff.mp hi).1
  have hindex := h.index_eq hi
  refine ⟨_, List.getElem?_eq_getElem (by omega), ?_, by omega⟩
  intro heq
  have hlast := @List.getElem?_eq_getElem _ (l.ids user) ((l.ids user).length - 1) (by omega)
  rw [heq] at hlast
  have := h.index_eq hlast
  omega

/-- Removing the entry of its user never fails.  It takes that entry out, and no
other array changes. -/
theorem Tracks.remove (h : l.Tracks owner) (howner : owner id = user) (huser : user ≠ 0) :
    ∃ l', l.remove user id = .ok l' ∧ l'.Tracks (update owner id 0) ∧
      ∀ u ≠ user, l'.ids u = l.ids u := by
  have hne : l.indexPlusOne id ≠ 0 := (h.indexed id).mpr (howner ▸ huser)
  have hpos : 1 ≤ (l.ids user).length :=
    List.length_pos_of_mem (h.mem_iff.mpr ⟨huser, howner⟩)
  have hsub : usub (l.ids user).length 1 = (.ok ((l.ids user).length - 1) : Except Error ℕ) :=
    if_pos hpos
  have hindexed {index : ℕ → ℕ} (hindex : ∀ x, x ≠ id → (index x ≠ 0 ↔ owner x ≠ 0)) (x : ℕ) :
      update index id 0 x ≠ 0 ↔ update owner id 0 x ≠ 0 := by
    by_cases hx : x = id
    · simp [hx]
    · simpa [hx] using hindex x hx
  have hgone {ids : Address → List ℕ} {index : ℕ → ℕ} {u : Address} {x : ℕ}
      (henumerates : Enumerates (update owner id 0) ids index) (hx : x ∈ ids u) : x ≠ id := by
    rintro rfl
    obtain ⟨hu, heq⟩ := (henumerates.mem_iff u x).mp hx
    rw [update_self] at heq
    exact hu heq.symm
  unfold UserIds.remove
  dsimp only
  rw [if_neg hne, hsub]
  by_cases hlast : l.indexPlusOne id - 1 = (l.ids user).length - 1
  · refine ⟨_, if_neg (not_not.mpr hlast), ⟨?_, ?_⟩, ?_⟩
    · have hpop := h.enumerates.pop howner huser hlast
      refine hpop.reindex fun u x hx ↦ ?_
      exact congrArg (· - 1) (update_of_ne (hgone hpop hx) _ _)
    · exact hindexed fun x _ ↦ h.indexed x
    · exact fun u hu ↦ update_of_ne hu _ _
  · obtain ⟨last, hget, hlastNe, hlt⟩ := h.last_ne howner huser hlast
    have hgetD : (l.ids user).getD ((l.ids user).length - 1) 0 = last := by
      rw [List.getD_eq_getElem?_getD, hget, Option.getD_some]
    refine ⟨_, (if_pos hlast).trans (congrArg (· >>= _) (if_neg (not_le.mpr hlt))), ⟨?_, ?_⟩, ?_⟩
    · have hswap := h.enumerates.swapPop howner huser hget hlast
      rw [hgetD]
      refine hswap.reindex fun u x hx ↦ ?_
      refine (congrArg (· - 1) (update_of_ne (hgone hswap hx) _ _)).trans ?_
      by_cases hx : x = last <;> simp [hx]
    · rw [hgetD]
      refine hindexed fun x _ ↦ ?_
      by_cases hx : x = last
      · rw [hx, update_self]
        have hmem := h.mem_iff.mp (List.mem_of_getElem? hget)
        exact iff_of_true (Nat.succ_ne_zero _) (hmem.2 ▸ hmem.1)
      · rw [update_of_ne hx]
        exact h.indexed x
    · exact fun u hu ↦ update_of_ne hu _ _

end UserIds

/-! ## Pages -/

/-- `_sliceUintArray`: the entries from `offset` on, at most `limit` of them, and
whether more follow. -/
def sliceUintArray (src : List ℕ) (offset limit : ℕ) : List ℕ × Bool :=
  if offset ≥ src.length ∨ limit = 0 then ([], false)
  else
    let remaining := src.length - offset
    let count := if limit > remaining then remaining else limit
    ((src.drop offset).take count, count < remaining)

/-- Page after page from `offset` on, for as long as the last one had more. -/
def pages (src : List ℕ) (limits : ℕ → ℕ) : ℕ → ℕ → List ℕ
  | 0, _ => []
  | fuel + 1, offset =>
      let page := sliceUintArray src offset (limits offset)
      page.1 ++ if page.2 then pages src limits fuel (offset + page.1.length) else []

/-- Pages of any positive sizes go through the rest of the array once. -/
theorem pages_eq_drop {src : List ℕ} {limits : ℕ → ℕ} (hlimits : ∀ offset, 0 < limits offset)
    {fuel offset : ℕ} (hfuel : src.length ≤ offset + fuel) :
    pages src limits fuel offset = src.drop offset := by
  induction fuel generalizing offset with
  | zero => exact (List.drop_eq_nil_of_le hfuel).symm
  | succ fuel ih =>
      have hlimit := hlimits offset
      unfold pages sliceUintArray
      dsimp only
      by_cases hend : offset ≥ src.length
      · rw [if_pos (.inl hend)]
        exact (List.drop_eq_nil_of_le hend).symm
      rw [if_neg (by omega)]
      dsimp only
      by_cases hlast : limits offset > src.length - offset
      · rw [if_pos hlast, List.take_of_length_le (by rw [List.length_drop]),
          decide_eq_false (by omega)]
        simp
      · rw [if_neg hlast]
        by_cases hmore : limits offset < src.length - offset
        · have hlength : ((src.drop offset).take (limits offset)).length = limits offset := by
            rw [List.length_take, List.length_drop]
            omega
          rw [decide_eq_true hmore, if_pos rfl, hlength, ih (by omega), ← List.drop_drop,
            List.take_append_drop]
        · rw [decide_eq_false hmore, List.take_of_length_le (by rw [List.length_drop]; omega)]
          simp

end ClaimRush.MarketRouter
