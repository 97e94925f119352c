import Mathlib.Algebra.BigOperators.Finprod
import Mathlib.Data.Set.Card
import Mathlib.Data.Set.Finite.Basic
import Mathlib.Algebra.Order.BigOperators.Group.Finset
import Mathlib.Tactic.Linarith

/-!
# Totals of a mapping

A mapping with finitely many non-zero entries has a total.  Writing one entry
changes the total by the difference of the old and new values, whatever the
rest of the mapping holds.
-/

open Function

namespace ClaimRush

variable {κ : Type*}

/-- Sum of all entries of a mapping with finite support. -/
noncomputable def total (f : κ → ℕ) : ℕ := ∑ᶠ k, f k

/-- The mapping has finitely many non-zero entries. -/
def FiniteEntries (f : κ → ℕ) : Prop := (support f).Finite

theorem finiteEntries_zero : FiniteEntries (fun _ : κ ↦ 0) := by
  simp [FiniteEntries, support]

@[simp] theorem total_zero : total (fun _ : κ ↦ 0) = 0 := by
  simp [total]

theorem FiniteEntries.mono {f g : κ → ℕ} (hg : FiniteEntries g)
    (h : ∀ k, g k = 0 → f k = 0) : FiniteEntries f :=
  hg.subset fun k hk hgk ↦ hk (h k hgk)

/-- The total is a finite sum over any finite set that holds the support. -/
theorem total_eq_sum {f : κ → ℕ} {s : Finset κ} (hs : ∀ k, f k ≠ 0 → k ∈ s) :
    total f = ∑ k ∈ s, f k :=
  finsum_eq_sum_of_support_subset f fun k hk ↦ hs k hk

/-- Two mappings are summed over one common finite set. -/
theorem FiniteEntries.exists_finset {f g : κ → ℕ} (hf : FiniteEntries f)
    (hg : FiniteEntries g) :
    ∃ s : Finset κ, (∀ k, f k ≠ 0 → k ∈ s) ∧ ∀ k, g k ≠ 0 → k ∈ s := by
  classical
  refine ⟨hf.toFinset ∪ hg.toFinset, ?_, ?_⟩ <;> intro k hk
  · exact Finset.mem_union_left _ (hf.mem_toFinset.mpr hk)
  · exact Finset.mem_union_right _ (hg.mem_toFinset.mpr hk)

section Update

variable [DecidableEq κ]

theorem FiniteEntries.update {f : κ → ℕ} (hf : FiniteEntries f) (k : κ) (v : ℕ) :
    FiniteEntries (update f k v) := by
  refine (hf.insert k).subset ?_
  intro x hx
  by_cases hxk : x = k
  · exact Set.mem_insert_iff.mpr (Or.inl hxk)
  · refine Set.mem_insert_of_mem k ?_
    simpa [hxk] using hx

/-- Writing one entry trades the old value for the new one. -/
theorem total_update {f : κ → ℕ} (hf : FiniteEntries f) (k : κ) (v : ℕ) :
    total (update f k v) + f k = total f + v := by
  let s : Finset κ := insert k hf.toFinset
  have hk : k ∈ s := Finset.mem_insert_self _ _
  have hold : total f = ∑ x ∈ s, f x := total_eq_sum fun x hx ↦
    Finset.mem_insert_of_mem (hf.mem_toFinset.mpr hx)
  have hnew : total (update f k v) = ∑ x ∈ s, update f k v x := by
    refine total_eq_sum fun x hx ↦ ?_
    by_cases hxk : x = k
    · exact hxk ▸ hk
    · rw [update_of_ne hxk] at hx
      exact Finset.mem_insert_of_mem (hf.mem_toFinset.mpr hx)
  have hrest : ∑ x ∈ s \ {k}, update f k v x = ∑ x ∈ s \ {k}, f x :=
    Finset.sum_congr rfl fun x hx ↦ update_of_ne (by simpa using (Finset.mem_sdiff.mp hx).2) _ _
  have hsplitOld := Finset.sum_eq_add_sum_sdiff_singleton_of_mem hk f
  have hsplitNew := Finset.sum_eq_add_sum_sdiff_singleton_of_mem hk (update f k v)
  rw [update_self, hrest] at hsplitNew
  omega

end Update

/-- One entry never exceeds the total. -/
theorem le_total {f : κ → ℕ} (hf : FiniteEntries f) (k : κ) : f k ≤ total f := by
  classical
  have h := total_update hf k 0
  omega

theorem total_eq_zero_iff {f : κ → ℕ} (hf : FiniteEntries f) :
    total f = 0 ↔ ∀ k, f k = 0 := by
  constructor
  · intro h k
    have := le_total hf k
    omega
  · intro h
    rw [funext h]
    exact total_zero

theorem total_add {f g : κ → ℕ} (hf : FiniteEntries f) (hg : FiniteEntries g) :
    total (fun k ↦ f k + g k) = total f + total g :=
  finsum_add_distrib hf hg

theorem FiniteEntries.add {f g : κ → ℕ} (hf : FiniteEntries f) (hg : FiniteEntries g) :
    FiniteEntries (fun k ↦ f k + g k) := by
  refine (hf.union hg).subset fun k hk ↦ ?_
  by_contra hnot
  simp only [Set.mem_union, mem_support, not_or, not_not] at hnot
  exact hk (by simp [hnot])

theorem total_mono {f g : κ → ℕ} (hf : FiniteEntries f) (hg : FiniteEntries g)
    (h : ∀ k, f k ≤ g k) : total f ≤ total g := by
  obtain ⟨s, hfs, hgs⟩ := hf.exists_finset hg
  rw [total_eq_sum hfs, total_eq_sum hgs]
  exact Finset.sum_le_sum fun k _ ↦ h k

theorem total_mul_left {f : κ → ℕ} (hf : FiniteEntries f) (c : ℕ) :
    total (fun k ↦ c * f k) = c * total f := by
  have hc : FiniteEntries fun k ↦ c * f k := hf.mono fun k hk ↦ by simp [hk]
  obtain ⟨s, hfs, hcs⟩ := hf.exists_finset hc
  rw [total_eq_sum hfs, total_eq_sum hcs, Finset.mul_sum]

/-- A mapping that is zero outside a list without repetitions. -/
theorem total_eq_list_sum {f : κ → ℕ} {l : List κ} (hl : l.Nodup) (h : ∀ k, f k ≠ 0 → k ∈ l) :
    total f = (l.map f).sum := by
  classical
  rw [total_eq_sum (s := l.toFinset) fun k hk ↦ List.mem_toFinset.mpr (h k hk)]
  exact List.sum_toFinset f hl

/-- The same value at finitely many places. -/
theorem total_ite_const {p : κ → Prop} [DecidablePred p] (h : {k | p k}.Finite) (c : ℕ) :
    total (fun k ↦ if p k then c else 0) = c * {k | p k}.ncard := by
  have hmem (k : κ) : k ∈ h.toFinset ↔ p k := h.mem_toFinset
  rw [total_eq_sum fun k hk ↦ (hmem k).mpr (by_contra fun hnot ↦ hk (if_neg hnot))]
  rw [Finset.sum_congr rfl fun k hk ↦ if_pos ((hmem k).mp hk), Finset.sum_const,
    smul_eq_mul, Nat.mul_comm, Set.ncard_eq_toFinset_card _ h]

/-! ## Grouping -/

section Fibers

variable {ι : Type*} [DecidableEq ι] {f : κ → ℕ}

/-- Sum of the entries whose key `g` sends to `i`. -/
noncomputable def fiberTotal (f : κ → ℕ) (g : κ → ι) (i : ι) : ℕ :=
  total fun k ↦ if g k = i then f k else 0

theorem FiniteEntries.restrict (hf : FiniteEntries f) (p : κ → Prop) [DecidablePred p] :
    FiniteEntries fun k ↦ if p k then f k else 0 :=
  hf.mono fun k hk ↦ by simp [hk]

theorem FiniteEntries.fibers (hf : FiniteEntries f) (g : κ → ι) :
    FiniteEntries (fiberTotal f g) := by
  refine (hf.image g).subset fun i hi ↦ ?_
  by_contra hnone
  refine hi ((total_eq_zero_iff (hf.restrict _)).mpr fun k ↦ ?_)
  split_ifs with hk
  · by_contra hne
    exact hnone ⟨k, hne, hk⟩
  · rfl

/-- The total is the sum of the totals of its groups. -/
theorem total_fibers (hf : FiniteEntries f) (g : κ → ι) : total (fiberTotal f g) = total f := by
  classical
  have hsum (i : ι) : fiberTotal f g i = ∑ k ∈ hf.toFinset with g k = i, f k := by
    rw [Finset.sum_filter]
    refine total_eq_sum fun k hk ↦ hf.mem_toFinset.mpr fun hzero ↦ hk ?_
    rw [hzero, ite_self]
  have hmaps : ∀ k ∈ hf.toFinset, g k ∈ hf.toFinset.image g := fun k hk ↦
    Finset.mem_image_of_mem g hk
  have houter : total (fiberTotal f g) = ∑ i ∈ hf.toFinset.image g, fiberTotal f g i := by
    refine total_eq_sum fun i hi ↦ ?_
    rw [hsum] at hi
    obtain ⟨k, hk, -⟩ := Finset.exists_ne_zero_of_sum_ne_zero hi
    obtain ⟨hmem, rfl⟩ := Finset.mem_filter.mp hk
    exact hmaps k hmem
  rw [houter, Finset.sum_congr rfl fun i _ ↦ hsum i, Finset.sum_fiberwise_of_maps_to hmaps]
  exact (total_eq_sum fun k hk ↦ hf.mem_toFinset.mpr hk).symm

end Fibers

end ClaimRush
