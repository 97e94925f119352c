import Mathlib.Data.List.Infix
import Mathlib.Data.List.TakeWhile
import ClaimRush.Lib.FiniteTotal

/-!
# Reward indices

A reward index grows by `delta` at each distribution.  A position that carries
the weight `w t` at time `t` is owed `delta * w t` of a distribution made at
`t`, and its marker is the index value up to which it has been paid.  The
history lists the distributions, newest first.

A time-weighted companion of the index, which grows by `delta * time`, lets a
linearly decaying position be settled from two snapshots without the history.
-/

namespace ClaimRush

/-- One growth of the index, from `start` to `start + delta`. -/
structure Distribution where
  start : ℕ
  delta : ℕ
  time : ℕ

namespace Distribution

/-- Value of the index. -/
def index (ds : List Distribution) : ℕ := (ds.map delta).sum

/-- Value of the time-weighted index. -/
def timeIndex (ds : List Distribution) : ℕ := (ds.map fun d ↦ d.delta * d.time).sum

/-- What is owed for the weight `w` since the marker `p`. -/
def owed (ds : List Distribution) (p : ℕ) (w : ℕ → ℕ) : ℕ :=
  (ds.map fun d ↦ if p ≤ d.start then d.delta * w d.time else 0).sum

/-- Each distribution is positive and starts where the older ones ended. -/
def Consecutive : List Distribution → Prop
  | [] => True
  | d :: ds => d.start = index ds ∧ 0 < d.delta ∧ Consecutive ds

variable {d : Distribution} {ds : List Distribution} {p : ℕ} {w w' : ℕ → ℕ}

@[simp] theorem index_nil : index [] = 0 := rfl

@[simp] theorem index_cons : index (d :: ds) = d.delta + index ds := by
  simp [index]

@[simp] theorem timeIndex_nil : timeIndex [] = 0 := rfl

@[simp] theorem timeIndex_cons : timeIndex (d :: ds) = d.delta * d.time + timeIndex ds := by
  simp [timeIndex]

@[simp] theorem owed_nil : owed [] p w = 0 := rfl

@[simp] theorem owed_cons :
    owed (d :: ds) p w = (if p ≤ d.start then d.delta * w d.time else 0) + owed ds p w := by
  simp [owed]

theorem index_append (ds es : List Distribution) : index (ds ++ es) = index ds + index es := by
  simp [index]

theorem Consecutive.suffix {es : List Distribution} (h : Consecutive ds) (hes : es <:+ ds) :
    Consecutive es := by
  induction ds with
  | nil => exact List.suffix_nil.mp hes ▸ h
  | cons d ds ih =>
      rcases List.suffix_cons_iff.mp hes with rfl | hes
      · exact h
      · exact ih h.2.2 hes

theorem Consecutive.lt_index (h : Consecutive ds) : ∀ e ∈ ds, e.start < index ds := by
  induction ds with
  | nil => simp
  | cons d ds ih =>
      obtain ⟨hstart, hdelta, htail⟩ := h
      intro e he
      rw [index_cons]
      rcases List.mem_cons.mp he with rfl | he
      · omega
      · have := ih htail e he
        omega

/-- Nothing is owed to a marker at the current index. -/
theorem Consecutive.owed_settled (h : Consecutive ds) (w : ℕ → ℕ) : owed ds (index ds) w = 0 := by
  refine List.sum_eq_zero fun x hx ↦ ?_
  obtain ⟨e, he, rfl⟩ := List.mem_map.mp hx
  exact if_neg (not_le.mpr (h.lt_index e he))

theorem owed_mono (ds : List Distribution) (p : ℕ) (h : ∀ t, w t ≤ w' t) :
    owed ds p w ≤ owed ds p w' := by
  induction ds with
  | nil => simp
  | cons d ds ih =>
      rw [owed_cons, owed_cons]
      split_ifs
      · exact Nat.add_le_add (Nat.mul_le_mul_left _ (h _)) ih
      · exact Nat.add_le_add_left ih 0

theorem owed_const_mul (ds : List Distribution) (p c : ℕ) (w : ℕ → ℕ) :
    owed ds p (fun t ↦ c * w t) = c * owed ds p w := by
  induction ds with
  | nil => simp
  | cons d ds ih =>
      rw [owed_cons, owed_cons, ih, Nat.mul_add]
      split_ifs
      · rw [Nat.mul_left_comm]
      · rfl

@[simp] theorem owed_zero (ds : List Distribution) (p : ℕ) : owed ds p (fun _ ↦ 0) = 0 := by
  simpa using owed_const_mul ds p 0 fun _ ↦ 0

theorem owed_cons_le : owed (d :: ds) p w ≤ d.delta * w d.time + owed ds p w := by
  rw [owed_cons]
  split_ifs
  · exact le_rfl
  · omega

/-! ## Snapshots -/

/-- The index and the time-weighted index after the distributions up to some
past moment, none of them later than `t`. -/
def Snapshot (ds : List Distribution) (t x y : ℕ) : Prop :=
  ∃ es, es <:+ ds ∧ x = index es ∧ y = timeIndex es ∧ ∀ e ∈ es, e.time ≤ t

theorem Snapshot.zero (ds : List Distribution) (t : ℕ) : Snapshot ds t 0 0 :=
  ⟨[], List.nil_suffix, rfl, rfl, by simp⟩

theorem Snapshot.cons {t x y : ℕ} (h : Snapshot ds t x y) (d : Distribution) :
    Snapshot (d :: ds) t x y := by
  obtain ⟨es, hes, hrest⟩ := h
  exact ⟨es, hes.trans (List.suffix_cons d ds), hrest⟩

theorem Snapshot.current {t : ℕ} (h : ∀ e ∈ ds, e.time ≤ t) :
    Snapshot ds t (index ds) (timeIndex ds) :=
  ⟨ds, List.suffix_rfl, rfl, rfl, h⟩

/-- Since the index `es` reached, what is owed comes from the newer part. -/
theorem owed_append_settled {es : List Distribution} (h : Consecutive (ds ++ es)) (w : ℕ → ℕ) :
    owed (ds ++ es) (index es) w = (ds.map fun d ↦ d.delta * w d.time).sum := by
  induction ds with
  | nil => exact Consecutive.owed_settled h w
  | cons d ds ih =>
      obtain ⟨hstart, -, htail⟩ := h
      have hle : index es ≤ d.start := by
        rw [hstart]
        exact (index_append ds es).ge.trans' (Nat.le_add_left _ _)
      change owed (d :: (ds ++ es)) (index es) w = _
      rw [owed_cons, if_pos hle, ih htail]
      simp

/-- A position of constant weight is settled by the indices alone. -/
theorem Snapshot.flat_eq {q p z : ℕ} (hds : Consecutive ds) (hold : Snapshot ds q p z) (c : ℕ) :
    owed ds p (fun _ ↦ c) = c * (index ds - p) := by
  obtain ⟨es, ⟨rs, rfl⟩, rfl, -, -⟩ := hold
  rw [owed_append_settled hds, index_append, Nat.add_sub_cancel]
  rw [Nat.mul_comm]
  exact List.sum_map_mul_right rs delta c

/-- Two snapshots settle a position that decays linearly to zero at `e`. -/
theorem linear_sum (ds es : List Distribution) (e : ℕ) (h : ∀ d ∈ ds, d.time ≤ e) :
    e * index ds + timeIndex es =
      timeIndex (ds ++ es) + (ds.map fun d ↦ d.delta * (e - d.time)).sum := by
  induction ds with
  | nil => simp
  | cons d ds ih =>
      have htail := ih fun x hx ↦ h x (List.mem_cons_of_mem d hx)
      have htime := h d List.mem_cons_self
      have hhead : d.delta * (e - d.time) + d.delta * d.time = e * d.delta := by
        rw [← Nat.mul_add, Nat.sub_add_cancel htime, Nat.mul_comm]
      rw [index_cons, Nat.mul_add, List.cons_append, timeIndex_cons, List.map_cons, List.sum_cons]
      omega

/-- What the pair of snapshots computes is part of what is owed. -/
theorem Snapshot.linear_le {t x y q z e : ℕ} (hds : Consecutive ds) (hold : Snapshot ds q p z)
    (hnew : Snapshot ds t x y) (hte : t < e) (hle : p ≤ x) :
    ∃ v, e * (x - p) + z = y + v ∧ v ≤ owed ds p fun t ↦ e - t := by
  obtain ⟨es, hes, rfl, rfl, htimes⟩ := hnew
  obtain ⟨os, hos, rfl, rfl, -⟩ := hold
  have hsub : os <:+ es := by
    rcases List.suffix_or_suffix_of_suffix hos hes with h | ⟨rs, rfl⟩
    · exact h
    · cases rs with
      | nil => exact List.suffix_rfl
      | cons r rs =>
          have hpos := (hds.suffix hos).2.1
          rw [index_append, index_cons] at hle
          omega
  obtain ⟨rs, rfl⟩ := hsub
  refine ⟨(rs.map fun d ↦ d.delta * (e - d.time)).sum, ?_, ?_⟩
  · rw [index_append, Nat.add_sub_cancel]
    exact linear_sum rs os e fun d hd ↦ ((htimes d (List.mem_append_left os hd)).trans_lt hte).le
  · obtain ⟨ns, rfl⟩ := hes
    rw [← owed_append_settled (hds.suffix (List.suffix_append ns _)) fun t ↦ e - t]
    simp [owed]

/-! ## Exact settlement

In a history whose times never decrease, the distributions before a time form a
suffix, so two snapshots settle a decaying position exactly.
-/

/-- The times never decrease. -/
def Chronological (ds : List Distribution) : Prop := ds.Pairwise fun d e ↦ e.time ≤ d.time

/-- The distributions made before `t`. -/
def before (ds : List Distribution) (t : ℕ) : List Distribution :=
  ds.dropWhile fun d ↦ t ≤ d.time

/-- The time of the last distribution. -/
def lastTime (ds : List Distribution) : ℕ := (ds.head?.map time).getD 0

theorem before_suffix (ds : List Distribution) (t : ℕ) : before ds t <:+ ds :=
  List.dropWhile_suffix _

theorem before_cons_of_lt {t : ℕ} (h : d.time < t) : before (d :: ds) t = d :: ds :=
  List.dropWhile_cons_of_neg (by simpa using h)

theorem before_cons_of_le {t : ℕ} (h : t ≤ d.time) : before (d :: ds) t = before ds t :=
  List.dropWhile_cons_of_pos (by simpa using h)

theorem Chronological.time_lt (h : Chronological ds) {t : ℕ} :
    ∀ e ∈ before ds t, e.time < t := by
  induction ds with
  | nil => simp [before]
  | cons d ds ih =>
      obtain ⟨hd, htail⟩ := List.pairwise_cons.mp h
      by_cases hlt : d.time < t
      · rw [before_cons_of_lt hlt]
        intro e he
        rcases List.mem_cons.mp he with rfl | he
        · exact hlt
        · exact (hd e he).trans_lt hlt
      · rw [before_cons_of_le (not_lt.mp hlt)]
        exact ih htail

theorem Chronological.suffix {es : List Distribution} (h : Chronological ds) (hes : es <:+ ds) :
    Chronological es :=
  List.Pairwise.sublist hes.sublist h

/-- What follows the distributions before `t` is not earlier. -/
theorem exists_append_before (ds : List Distribution) (t : ℕ) :
    ∃ ns, ds = ns ++ before ds t ∧ ∀ d ∈ ns, t ≤ d.time := by
  refine ⟨ds.takeWhile fun d ↦ t ≤ d.time, List.takeWhile_append_dropWhile.symm, fun d hd ↦ ?_⟩
  simpa using List.mem_takeWhile_imp hd

theorem sum_ended {rs : List Distribution} {e : ℕ} (h : ∀ d ∈ rs, e ≤ d.time) :
    (rs.map fun d ↦ d.delta * (e - d.time)).sum = 0 := by
  refine List.sum_eq_zero fun x hx ↦ ?_
  obtain ⟨d, hd, rfl⟩ := List.mem_map.mp hx
  rw [Nat.sub_eq_zero_of_le (h d hd), Nat.mul_zero]

/-- A suffix with the smaller index is the shorter one. -/
theorem suffix_of_index_lt {es os : List Distribution}
    (hes : es <:+ ds) (hos : os <:+ ds) (hlt : index os < index es) : os <:+ es := by
  rcases List.suffix_or_suffix_of_suffix hos hes with h | ⟨rs, rfl⟩
  · exact h
  · rw [index_append] at hlt
    omega

theorem Consecutive.suffix_of_index_le {es os : List Distribution} (hds : Consecutive ds)
    (hes : es <:+ ds) (hos : os <:+ ds) (hle : index es ≤ index os) : es <:+ os := by
  rcases List.suffix_or_suffix_of_suffix hes hos with h | ⟨rs, rfl⟩
  · exact h
  · cases rs with
    | nil => exact List.suffix_rfl
    | cons r rs =>
        have hpos := (hds.suffix hes).2.1
        rw [index_append, index_cons] at hle
        omega

/-- A decaying position whose marker is still before its end. -/
theorem owed_linear_eq {os : List Distribution} {e : ℕ} (hds : Consecutive ds)
    (htimes : Chronological ds) (hos : os <:+ ds) (hlt : index os < index (before ds e)) :
    e * (index (before ds e) - index os) + timeIndex os =
      timeIndex (before ds e) + owed ds (index os) fun t ↦ e - t := by
  have hes := before_suffix ds e
  obtain ⟨rs, hrs⟩ := suffix_of_index_lt hes hos hlt
  obtain ⟨ns, hns, hlater⟩ := exists_append_before ds e
  have hearlier (d : Distribution) (hd : d ∈ rs) : d.time ≤ e :=
    (htimes.time_lt d (hrs ▸ List.mem_append_left os hd)).le
  have howed : owed ds (index os) (fun t ↦ e - t) =
      (rs.map fun d ↦ d.delta * (e - d.time)).sum := by
    have hsplit : ds = (ns ++ rs) ++ os := by
      rw [List.append_assoc, hrs]
      exact hns
    rw [hsplit, owed_append_settled (hsplit ▸ hds), List.map_append, List.sum_append,
      sum_ended hlater, Nat.zero_add]
  rw [howed, ← hrs, index_append, Nat.add_sub_cancel]
  exact linear_sum rs os e hearlier

/-- A decaying position that ended before anything was distributed to it. -/
theorem owed_linear_of_index_le {os : List Distribution} {e : ℕ} (hds : Consecutive ds)
    (hos : os <:+ ds) (hle : index (before ds e) ≤ index os) :
    owed ds (index os) (fun t ↦ e - t) = 0 := by
  obtain ⟨rs, hrs⟩ := hds.suffix_of_index_le (before_suffix ds e) hos hle
  obtain ⟨ns, hns, hlater⟩ := exists_append_before ds e
  obtain ⟨ms, hms⟩ := hos
  have hsplit : ms ++ rs = ns := by
    rw [← hrs, ← List.append_assoc] at hms
    exact List.append_cancel_right (hms.trans hns)
  rw [← hms, owed_append_settled (hms ▸ hds)]
  exact sum_ended fun d hd ↦ hlater d (hsplit ▸ List.mem_append_left rs hd)

/-- A decaying position that had ended at its marker. -/
theorem owed_linear_of_le_lastTime {os : List Distribution} {e : ℕ} (hds : Consecutive ds)
    (htimes : Chronological ds) (hos : os <:+ ds) (he : e ≤ lastTime os) :
    owed ds (index os) (fun t ↦ e - t) = 0 := by
  obtain ⟨ms, rfl⟩ := hos
  rw [owed_append_settled hds]
  refine sum_ended fun d hd ↦ he.trans ?_
  cases os with
  | nil => exact Nat.zero_le _
  | cons o os => exact (List.pairwise_append.mp htimes).2.2 d hd o List.mem_cons_self

/-! ## All positions together -/

section Positions

variable {κ : Type*} {m : κ → ℕ} {v : κ → ℕ → ℕ}

theorem FiniteEntries.owed (ds : List Distribution) (m : κ → ℕ)
    (h : {k | ∃ t, v k t ≠ 0}.Finite) : FiniteEntries fun k ↦ owed ds (m k) (v k) := by
  refine h.subset fun k hk ↦ ?_
  by_contra hnone
  have hzero : v k = fun _ ↦ 0 := by
    funext t
    by_contra ht
    exact hnone ⟨t, ht⟩
  exact hk (by simp [hzero])

/-- A distribution raises what all positions are owed by at most its share of
their total weight. -/
theorem total_owed_cons_le (d : Distribution) (ds : List Distribution) (m : κ → ℕ)
    (h : {k | ∃ t, v k t ≠ 0}.Finite) :
    total (fun k ↦ owed (d :: ds) (m k) (v k)) ≤
      d.delta * total (fun k ↦ v k d.time) + total fun k ↦ owed ds (m k) (v k) := by
  have hweights : FiniteEntries fun k ↦ v k d.time := h.subset fun k hk ↦ ⟨_, hk⟩
  have hscaled : FiniteEntries fun k ↦ d.delta * v k d.time :=
    hweights.mono fun k hk ↦ by simp [hk]
  rw [← total_mul_left hweights, ← total_add hscaled (FiniteEntries.owed ds m h)]
  exact total_mono (FiniteEntries.owed (d :: ds) m h)
    (hscaled.add (FiniteEntries.owed ds m h)) fun k ↦ owed_cons_le

end Positions

end Distribution

end ClaimRush
