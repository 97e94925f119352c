import Mathlib.Algebra.Order.Group.Nat
import Mathlib.Logic.Function.Basic
import Mathlib.Tactic.Common

/-!
# Indexed binary min-heaps

A binary heap occupies the positions `1, …, size` of an array, and a second
mapping records the position of every stored key, with `0` for an absent key.
The sifts carry one key past a hole instead of swapping.

The hole is the unit of the argument.  `Sifting` is the state of both mappings
while a key is carried, `UpOrder` and `DownOrder` are the order facts that the
two directions need, and placing the key closes all of them at once.
-/

open Function

namespace ClaimRush

/-- An array heap with the recorded position of each key. -/
structure IndexedHeap (α : Type*) where
  size : ℕ
  slot : ℕ → α
  index : α → ℕ

namespace IndexedHeap

variable {α : Type*} [LinearOrder α]

/-- Write a key to a position and record the position. -/
def put (h : IndexedHeap α) (i : ℕ) (v : α) : IndexedHeap α :=
  { h with slot := update h.slot i v, index := update h.index v i }

/-- Move the hole at `idx` towards the root until `val` fits. -/
def siftUp (val : α) : ℕ → IndexedHeap α → ℕ → IndexedHeap α
  | 0, h, idx => h.put idx val
  | fuel + 1, h, idx =>
      if idx ≤ 1 then h.put idx val
      else if h.slot (idx / 2) ≤ val then h.put idx val
      else siftUp val fuel (h.put idx (h.slot (idx / 2))) (idx / 2)

/-- The child of `idx` with the smaller key; the left one on a tie. -/
def smallestChild (h : IndexedHeap α) (idx : ℕ) : ℕ :=
  if idx * 2 + 1 ≤ h.size ∧ h.slot (idx * 2 + 1) < h.slot (idx * 2)
  then idx * 2 + 1 else idx * 2

/-- Move the hole at `idx` towards the leaves until `val` fits. -/
def siftDown (val : α) : ℕ → IndexedHeap α → ℕ → IndexedHeap α
  | 0, h, idx => h.put idx val
  | fuel + 1, h, idx =>
      if h.size < idx * 2 then h.put idx val
      else if val ≤ h.slot (h.smallestChild idx) then h.put idx val
      else siftDown val fuel (h.put idx (h.slot (h.smallestChild idx)))
        (h.smallestChild idx)

def heapifyUp (h : IndexedHeap α) (idx : ℕ) : IndexedHeap α :=
  siftUp (h.slot idx) idx h idx

def heapifyDown (h : IndexedHeap α) (idx : ℕ) : IndexedHeap α :=
  siftDown (h.slot idx) h.size h idx

/-- Append a key at the end of the array. -/
def push (h : IndexedHeap α) (v : α) : IndexedHeap α :=
  { h.put (h.size + 1) v with size := h.size + 1 }

/-- Drop the last position of the array. -/
def pop (h : IndexedHeap α) : IndexedHeap α := { h with size := h.size - 1 }

/-- Forget the position of a key. -/
def forget (h : IndexedHeap α) (v : α) : IndexedHeap α :=
  { h with index := update h.index v 0 }

def insert (h : IndexedHeap α) (v : α) : IndexedHeap α :=
  if h.index v ≠ 0 then h else (h.push v).heapifyUp (h.size + 1)

def remove (h : IndexedHeap α) (v : α) : IndexedHeap α :=
  let idx := h.index v
  if idx = 0 then h
  else if idx = h.size then (h.forget v).pop
  else
    let h' := ((h.forget v).put idx (h.slot h.size)).pop
    if 1 < idx ∧ h'.slot idx < h'.slot (idx / 2) then h'.heapifyUp idx
    else h'.heapifyDown idx

/-- The key at the root, if there is one. -/
def min? (h : IndexedHeap α) : Option α := if h.size = 0 then none else some (h.slot 1)

/-- A key is stored when its recorded position is not zero. -/
def Mem (h : IndexedHeap α) (v : α) : Prop := h.index v ≠ 0

/-! ## Well-formed heaps -/

/-- Positions and keys determine each other, and no key precedes its parent. -/
structure WellFormed (h : IndexedHeap α) : Prop where
  index_slot : ∀ i, 1 ≤ i → i ≤ h.size → h.index (h.slot i) = i
  index_le : ∀ v, h.Mem v → h.index v ≤ h.size
  slot_index : ∀ v, h.Mem v → h.slot (h.index v) = v
  ordered : ∀ i, 2 ≤ i → i ≤ h.size → h.slot (i / 2) ≤ h.slot i

namespace WellFormed

variable {h : IndexedHeap α}

theorem slot_mem (w : h.WellFormed) {i : ℕ} (hi : 1 ≤ i) (hs : i ≤ h.size) :
    h.Mem (h.slot i) := by
  unfold Mem
  rw [w.index_slot i hi hs]
  omega

/-- The root precedes every position. -/
theorem root_le_slot (w : h.WellFormed) (i : ℕ) (hi : 1 ≤ i) (hs : i ≤ h.size) :
    h.slot 1 ≤ h.slot i := by
  induction i using Nat.strong_induction_on with
  | _ i ih =>
      by_cases h1 : i = 1
      · rw [h1]
      · have hparent := ih (i / 2) (by omega) (by omega) (by omega)
        exact hparent.trans (w.ordered i (by omega) hs)

theorem root_le (w : h.WellFormed) {v : α} (hv : h.Mem v) : h.slot 1 ≤ v := by
  have hpos : 1 ≤ h.index v := Nat.one_le_iff_ne_zero.mpr hv
  have hroot := w.root_le_slot _ hpos (w.index_le v hv)
  rwa [w.slot_index v hv] at hroot

theorem size_pos (w : h.WellFormed) {v : α} (hv : h.Mem v) : 0 < h.size :=
  (Nat.pos_of_ne_zero hv).trans_le (w.index_le v hv)

theorem min?_eq_none (w : h.WellFormed) (hm : h.min? = none) (v : α) : ¬ h.Mem v := by
  intro hv
  have := w.size_pos hv
  simp only [min?] at hm
  split at hm
  · omega
  · cases hm

theorem min?_eq_some (w : h.WellFormed) {m : α} (hm : h.min? = some m) :
    h.Mem m ∧ ∀ v, h.Mem v → m ≤ v := by
  simp only [min?] at hm
  split at hm
  · cases hm
  · cases hm
    exact ⟨w.slot_mem le_rfl (by omega), fun v hv ↦ w.root_le hv⟩

end WellFormed

/-! ## Carrying a key past a hole -/

/-- Both mappings while `val` is carried: they agree away from the hole, and no
other position holds `val`. -/
structure Sifting (h : IndexedHeap α) (hole : ℕ) (val : α) : Prop where
  hole_pos : 1 ≤ hole
  hole_le : hole ≤ h.size
  index_slot : ∀ i, 1 ≤ i → i ≤ h.size → i ≠ hole → h.index (h.slot i) = i
  slot_ne : ∀ i, 1 ≤ i → i ≤ h.size → i ≠ hole → h.slot i ≠ val
  index_le : ∀ v, h.Mem v → v ≠ val → h.index v ≤ h.size
  slot_index : ∀ v, h.Mem v → v ≠ val → h.index v ≠ hole ∧ h.slot (h.index v) = v

/-- Every parent and child away from the hole are in order. -/
def OrderedExcept (h : IndexedHeap α) (hole : ℕ) : Prop :=
  ∀ i, 2 ≤ i → i ≤ h.size → i ≠ hole → i / 2 ≠ hole → h.slot (i / 2) ≤ h.slot i

/-- The parent of the hole precedes the children of the hole. -/
def GrandOrder (h : IndexedHeap α) (hole : ℕ) : Prop :=
  2 ≤ hole → ∀ c, c / 2 = hole → c ≤ h.size → h.slot (hole / 2) ≤ h.slot c

structure UpOrder (h : IndexedHeap α) (hole : ℕ) (val : α) : Prop where
  except : h.OrderedExcept hole
  grand : h.GrandOrder hole
  below : ∀ c, c / 2 = hole → c ≤ h.size → val ≤ h.slot c

structure DownOrder (h : IndexedHeap α) (hole : ℕ) (val : α) : Prop where
  except : h.OrderedExcept hole
  grand : h.GrandOrder hole
  above : 2 ≤ hole → h.slot (hole / 2) ≤ val

section Holes

variable {h : IndexedHeap α} {hole p : ℕ} {val : α}

@[simp] theorem put_size (i : ℕ) (v : α) : (h.put i v).size = h.size := rfl

@[simp] theorem put_slot_self (i : ℕ) (v : α) : (h.put i v).slot i = v :=
  update_self _ _ _

theorem put_slot_of_ne {i j : ℕ} (hij : j ≠ i) (v : α) :
    (h.put i v).slot j = h.slot j := update_of_ne hij _ _

@[simp] theorem put_index_self (i : ℕ) (v : α) : (h.put i v).index v = i :=
  update_self _ _ _

theorem put_index_of_ne {v w : α} (hvw : w ≠ v) (i : ℕ) :
    (h.put i v).index w = h.index w := update_of_ne hvw _ _

/-- Moving the key of position `p` into the hole moves the hole to `p`. -/
theorem Sifting.move (s : Sifting h hole val) (hp : 1 ≤ p) (hps : p ≤ h.size)
    (hne : p ≠ hole) : Sifting (h.put hole (h.slot p)) p val where
  hole_pos := hp
  hole_le := hps
  index_slot i hi his hip := by
    by_cases hih : i = hole
    · simp [hih]
    · have hslot : h.slot i ≠ h.slot p := by
        intro heq
        have := s.index_slot i hi his hih
        rw [heq, s.index_slot p hp hps hne] at this
        exact hip this.symm
      rw [put_slot_of_ne hih, put_index_of_ne hslot]
      exact s.index_slot i hi his hih
  slot_ne i hi his hip := by
    by_cases hih : i = hole
    · rw [hih, put_slot_self]
      exact s.slot_ne p hp hps hne
    · rw [put_slot_of_ne hih]
      exact s.slot_ne i hi his hih
  index_le v hv hval := by
    by_cases hvp : v = h.slot p
    · rw [hvp, put_index_self]
      exact s.hole_le
    · unfold Mem at hv
      rw [put_index_of_ne hvp] at hv ⊢
      exact s.index_le v hv hval
  slot_index v hv hval := by
    by_cases hvp : v = h.slot p
    · subst hvp
      rw [put_index_self, put_slot_self]
      exact ⟨hne.symm, rfl⟩
    · unfold Mem at hv
      rw [put_index_of_ne hvp] at hv ⊢
      obtain ⟨hhole, hslot⟩ := s.slot_index v hv hval
      rw [put_slot_of_ne hhole]
      refine ⟨?_, hslot⟩
      rintro rfl
      exact hvp hslot.symm

theorem Sifting.move_mem (s : Sifting h hole val) (hp : 1 ≤ p) (hps : p ≤ h.size)
    (hne : p ≠ hole) (v : α) : (h.put hole (h.slot p)).Mem v ↔ h.Mem v := by
  have hpos := s.hole_pos
  by_cases hvp : v = h.slot p
  · subst hvp
    unfold Mem
    rw [put_index_self, s.index_slot p hp hps hne]
    omega
  · unfold Mem
    rw [put_index_of_ne hvp]

/-- Placing the carried key restores agreement everywhere. -/
theorem Sifting.finish (s : Sifting h hole val)
    (hord : ∀ i, 2 ≤ i → i ≤ h.size →
      (h.put hole val).slot (i / 2) ≤ (h.put hole val).slot i) :
    (h.put hole val).WellFormed where
  index_slot i hi his := by
    by_cases hih : i = hole
    · simp [hih]
    · rw [put_slot_of_ne hih, put_index_of_ne (s.slot_ne i hi his hih)]
      exact s.index_slot i hi his hih
  index_le v hv := by
    by_cases hval : v = val
    · rw [hval, put_index_self]
      exact s.hole_le
    · unfold Mem at hv
      rw [put_index_of_ne hval] at hv ⊢
      exact s.index_le v hv hval
  slot_index v hv := by
    by_cases hval : v = val
    · rw [hval, put_index_self, put_slot_self]
    · unfold Mem at hv
      rw [put_index_of_ne hval] at hv ⊢
      obtain ⟨hhole, hslot⟩ := s.slot_index v hv hval
      rw [put_slot_of_ne hhole, hslot]
  ordered i hi his := hord i hi his

theorem Sifting.finish_mem (s : Sifting h hole val) (v : α) :
    (h.put hole val).Mem v ↔ v = val ∨ h.Mem v := by
  have hpos := s.hole_pos
  by_cases hval : v = val
  · subst hval
    unfold Mem
    rw [put_index_self]
    exact ⟨fun _ ↦ Or.inl rfl, fun _ ↦ by omega⟩
  · unfold Mem
    rw [put_index_of_ne hval]
    exact ⟨Or.inr, fun hv ↦ hv.resolve_left hval⟩

/-! ## Sifting up -/

theorem UpOrder.move (o : UpOrder h hole val) (hhole : 2 ≤ hole) (hle : hole ≤ h.size)
    (hlt : val < h.slot (hole / 2)) :
    UpOrder (h.put hole (h.slot (hole / 2))) (hole / 2) val where
  except i hi his hip hpp := by
    have hih : i / 2 ≠ hole ∨ i / 2 = hole := by omega
    have hself : i ≠ hole := by
      rintro rfl
      exact hpp rfl
    rw [put_slot_of_ne hself]
    rcases hih with hparent | hparent
    · rw [put_slot_of_ne hparent]
      exact o.except i hi his hself hparent
    · rw [hparent, put_slot_self]
      exact o.grand hhole i hparent his
  grand hp c hc hcs := by
    have hgrand : h.slot (hole / 2 / 2) ≤ h.slot (hole / 2) :=
      o.except (hole / 2) hp (by simp only [put_size] at hcs; omega) (by omega) (by omega)
    rw [put_slot_of_ne (by omega)]
    by_cases hch : c = hole
    · rw [hch, put_slot_self]
      exact hgrand
    · rw [put_slot_of_ne hch]
      have hpc := o.except c (by omega) hcs hch (by omega)
      rw [hc] at hpc
      exact hgrand.trans hpc
  below c hc hcs := by
    by_cases hch : c = hole
    · rw [hch, put_slot_self]
      exact hlt.le
    · rw [put_slot_of_ne hch]
      have hpc := o.except c (by omega) hcs hch (by omega)
      rw [hc] at hpc
      exact hlt.le.trans hpc

theorem UpOrder.finish (o : UpOrder h hole val)
    (hstop : 2 ≤ hole → h.slot (hole / 2) ≤ val) (i : ℕ) (hi : 2 ≤ i) (his : i ≤ h.size) :
    (h.put hole val).slot (i / 2) ≤ (h.put hole val).slot i := by
  by_cases hih : i = hole
  · subst hih
    rw [put_slot_self, put_slot_of_ne (by omega)]
    exact hstop hi
  · rw [put_slot_of_ne hih]
    by_cases hparent : i / 2 = hole
    · rw [hparent, put_slot_self]
      exact o.below i hparent his
    · rw [put_slot_of_ne hparent]
      exact o.except i hi his hih hparent

/-- Sifting up ends in a well-formed heap that gained exactly the carried key. -/
theorem siftUp_spec (fuel : ℕ) (h : IndexedHeap α) (hole : ℕ) (hfuel : hole ≤ fuel)
    (s : Sifting h hole val) (o : UpOrder h hole val) :
    (siftUp val fuel h hole).WellFormed ∧
      ∀ v, (siftUp val fuel h hole).Mem v ↔ v = val ∨ h.Mem v := by
  induction fuel generalizing h hole with
  | zero => exact absurd s.hole_pos (by omega)
  | succ fuel ih =>
      rw [siftUp]
      split_ifs with hroot hstop
      · exact ⟨s.finish (o.finish fun h2 ↦ by omega), s.finish_mem⟩
      · exact ⟨s.finish (o.finish fun _ ↦ hstop), s.finish_mem⟩
      · have hle := s.hole_le
        have hmove := s.move (p := hole / 2) (by omega) (by omega) (by omega)
        have hmem := s.move_mem (p := hole / 2) (by omega) (by omega) (by omega)
        obtain ⟨hwf, hrec⟩ := ih _ _ (by omega) hmove
          (o.move (by omega) hle (not_le.mp hstop))
        exact ⟨hwf, fun v ↦ by rw [hrec, hmem]⟩

/-! ## Sifting down -/

theorem smallestChild_cases (h : IndexedHeap α) (idx : ℕ) :
    h.smallestChild idx = idx * 2 ∨ h.smallestChild idx = idx * 2 + 1 := by
  unfold smallestChild
  split <;> simp

theorem smallestChild_le_size (hs : hole * 2 ≤ h.size) :
    h.smallestChild hole ≤ h.size := by
  unfold smallestChild
  split
  · omega
  · exact hs

theorem smallestChild_le (c : ℕ) (hc : c / 2 = hole) (hcs : c ≤ h.size) :
    h.slot (h.smallestChild hole) ≤ h.slot c := by
  have hcases : c = hole * 2 ∨ c = hole * 2 + 1 := by omega
  unfold smallestChild
  split
  · rename_i hlt
    rcases hcases with rfl | rfl
    · exact hlt.2.le
    · exact le_rfl
  · rename_i hge
    rcases hcases with rfl | rfl
    · exact le_rfl
    · exact not_lt.mp fun hlt ↦ hge ⟨hcs, hlt⟩

theorem DownOrder.move (o : DownOrder h hole val) (hhole : 1 ≤ hole)
    (hs : hole * 2 ≤ h.size) (hlt : h.slot (h.smallestChild hole) < val) :
    DownOrder (h.put hole (h.slot (h.smallestChild hole))) (h.smallestChild hole) val := by
  have hcases := h.smallestChild_cases hole
  have hchild := smallestChild_le_size hs
  refine ⟨?_, ?_, ?_⟩
  · intro i hi his hic hpc
    by_cases hih : i = hole
    · subst hih
      rw [put_slot_self, put_slot_of_ne (by omega)]
      exact o.grand hi _ (by omega) hchild
    · rw [put_slot_of_ne hih]
      by_cases hparent : i / 2 = hole
      · rw [hparent, put_slot_self]
        exact smallestChild_le i hparent his
      · rw [put_slot_of_ne hparent]
        exact o.except i hi his hih hparent
  · intro _ c hc hcs
    have hparent : h.smallestChild hole / 2 = hole := by omega
    rw [hparent, put_slot_self, put_slot_of_ne (by omega)]
    have := o.except c (by omega) hcs (by omega) (by omega)
    rwa [hc] at this
  · intro _
    have hparent : h.smallestChild hole / 2 = hole := by omega
    rw [hparent, put_slot_self]
    exact hlt.le

theorem DownOrder.finish (o : DownOrder h hole val)
    (hstop : ∀ c, c / 2 = hole → c ≤ h.size → val ≤ h.slot c) (i : ℕ) (hi : 2 ≤ i)
    (his : i ≤ h.size) :
    (h.put hole val).slot (i / 2) ≤ (h.put hole val).slot i :=
  UpOrder.finish ⟨o.except, o.grand, hstop⟩ o.above i hi his

/-- Sifting down ends in a well-formed heap that gained exactly the carried key. -/
theorem siftDown_spec (fuel : ℕ) (h : IndexedHeap α) (hole : ℕ)
    (hfuel : h.size < hole + fuel) (s : Sifting h hole val) (o : DownOrder h hole val) :
    (siftDown val fuel h hole).WellFormed ∧
      ∀ v, (siftDown val fuel h hole).Mem v ↔ v = val ∨ h.Mem v := by
  induction fuel generalizing h hole with
  | zero => exact absurd s.hole_le (by omega)
  | succ fuel ih =>
      have hpos := s.hole_pos
      rw [siftDown]
      split_ifs with hleaf hstop
      · exact ⟨s.finish (o.finish fun c hc hcs ↦ by omega), s.finish_mem⟩
      · exact ⟨s.finish (o.finish fun c hc hcs ↦ hstop.trans (smallestChild_le c hc hcs)),
          s.finish_mem⟩
      · have hs : hole * 2 ≤ h.size := by omega
        have hcases := h.smallestChild_cases hole
        have hchild := smallestChild_le_size hs
        have hmove := s.move (p := h.smallestChild hole) (by omega) hchild (by omega)
        have hmem := s.move_mem (p := h.smallestChild hole) (by omega) hchild (by omega)
        obtain ⟨hwf, hrec⟩ := ih _ _ (by rw [put_size]; omega) hmove
          (o.move hpos hs (not_le.mp hstop))
        exact ⟨hwf, fun v ↦ by rw [hrec, hmem]⟩

end Holes

/-! ## Insertion and removal -/

section Operations

variable {h : IndexedHeap α}

theorem insert_spec (w : h.WellFormed) (v : α) :
    (h.insert v).WellFormed ∧ ∀ u, (h.insert v).Mem u ↔ u = v ∨ h.Mem u := by
  unfold insert
  split_ifs with hv
  · exact ⟨w, fun u ↦ ⟨Or.inr, fun hu ↦ hu.elim (fun heq ↦ heq ▸ hv) id⟩⟩
  · have hslot : ∀ i, i ≠ h.size + 1 → (h.push v).slot i = h.slot i :=
      fun i hi ↦ update_of_ne hi _ _
    have hne : ∀ i, 1 ≤ i → i ≤ h.size → h.slot i ≠ v := by
      rintro i hi his rfl
      exact hv (w.slot_mem hi his)
    have s : Sifting (h.push v) (h.size + 1) v := by
      refine ⟨by omega, le_rfl, ?_, ?_, ?_, ?_⟩
      · intro i hi his hih
        have his' : i ≤ h.size := by
          change i ≤ h.size + 1 at his
          omega
        rw [hslot i hih]
        exact (update_of_ne (hne i hi his') _ _).trans (w.index_slot i hi his')
      · intro i hi his hih
        rw [hslot i hih]
        refine hne i hi ?_
        change i ≤ h.size + 1 at his
        omega
      · intro u hu huv
        have hidx : (h.push v).index u = h.index u := update_of_ne huv _ _
        rw [Mem, hidx] at hu
        rw [hidx]
        exact (w.index_le u hu).trans (Nat.le_succ _)
      · intro u hu huv
        have hidx : (h.push v).index u = h.index u := update_of_ne huv _ _
        rw [Mem, hidx] at hu
        have hle := w.index_le u hu
        rw [hidx, hslot _ (by omega)]
        exact ⟨by omega, w.slot_index u hu⟩
    have o : UpOrder (h.push v) (h.size + 1) v := by
      refine ⟨?_, ?_, ?_⟩
      · intro i hi his hih hip
        change i ≤ h.size + 1 at his
        rw [hslot i hih, hslot _ hip]
        exact w.ordered i hi (by omega)
      · intro _ c hc hcs
        change c ≤ h.size + 1 at hcs
        omega
      · intro c hc hcs
        change c ≤ h.size + 1 at hcs
        omega
    have hval : (h.push v).slot (h.size + 1) = v := update_self _ _ _
    unfold heapifyUp
    rw [hval]
    obtain ⟨hwf, hmem⟩ := siftUp_spec _ _ _ le_rfl s o
    refine ⟨hwf, fun u ↦ ?_⟩
    rw [hmem]
    by_cases huv : u = v
    · simp [huv]
    · have hidx : (h.push v).index u = h.index u := update_of_ne huv _ _
      simp [huv, Mem, hidx]

/-- Removing the last position needs no sift. -/
theorem forget_pop_spec (w : h.WellFormed) {v : α} (hv : h.Mem v)
    (hlast : h.index v = h.size) :
    (h.forget v).pop.WellFormed ∧ ∀ u, (h.forget v).pop.Mem u ↔ h.Mem u ∧ u ≠ v := by
  have hslotv := w.slot_index v hv
  have hidx : ∀ u, u ≠ v → (h.forget v).pop.index u = h.index u :=
    fun u hu ↦ update_of_ne hu _ _
  have hmem : ∀ u, (h.forget v).pop.Mem u ↔ h.Mem u ∧ u ≠ v := by
    intro u
    by_cases huv : u = v
    · subst huv
      exact ⟨fun hu ↦ absurd (update_self _ _ _) hu, fun hu ↦ absurd rfl hu.2⟩
    · rw [Mem, hidx u huv]
      exact ⟨fun hu ↦ ⟨hu, huv⟩, fun hu ↦ hu.1⟩
  refine ⟨⟨?_, ?_, ?_, ?_⟩, hmem⟩
  · intro i hi his
    change i ≤ h.size - 1 at his
    have hi' := w.index_slot i hi (by omega)
    change (h.forget v).pop.index (h.slot i) = i
    rw [hidx _ ?_, hi']
    rintro heq
    rw [heq] at hi'
    omega
  · intro u hu
    obtain ⟨hu', huv⟩ := (hmem u).mp hu
    have hle := w.index_le u hu'
    have hne : h.index u ≠ h.size := by
      intro heq
      have hslotu := w.slot_index u hu'
      rw [heq, ← hlast, hslotv] at hslotu
      exact huv hslotu.symm
    rw [hidx u huv]
    change h.index u ≤ h.size - 1
    omega
  · intro u hu
    obtain ⟨hu', huv⟩ := (hmem u).mp hu
    rw [hidx u huv]
    exact w.slot_index u hu'
  · intro i hi his
    change i ≤ h.size - 1 at his
    exact w.ordered i hi (by omega)

/-- The heap left after the last key has been moved over a removed one. -/
theorem replace_sifting (w : h.WellFormed) {v : α} (hv : h.Mem v)
    (hlast : h.index v ≠ h.size) :
    let h' := ((h.forget v).put (h.index v) (h.slot h.size)).pop
    Sifting h' (h.index v) (h.slot h.size) ∧
      (∀ u, (u = h.slot h.size ∨ h'.Mem u) ↔ h.Mem u ∧ u ≠ v) ∧
      (∀ i, i ≠ h.index v → h'.slot i = h.slot i) := by
  intro h'
  have hpos : 1 ≤ h.index v := Nat.one_le_iff_ne_zero.mpr hv
  have hle := w.index_le v hv
  have hslotv := w.slot_index v hv
  have hlastIdx := w.index_slot h.size (by omega) le_rfl
  have hlastNe : h.slot h.size ≠ v := by
    intro heq
    rw [heq] at hlastIdx
    exact hlast hlastIdx
  have hslot : ∀ i, i ≠ h.index v → h'.slot i = h.slot i := fun i hi ↦ update_of_ne hi _ _
  have hidx : ∀ u, u ≠ h.slot h.size → u ≠ v → h'.index u = h.index u := by
    intro u hu huv
    change update (update h.index v 0) (h.slot h.size) (h.index v) u = h.index u
    rw [update_of_ne hu, update_of_ne huv]
  have hidxv : h'.index v = 0 := by
    change update (update h.index v 0) (h.slot h.size) (h.index v) v = 0
    rw [update_of_ne hlastNe.symm, update_self]
  have hdistinct : ∀ i j, 1 ≤ i → i ≤ h.size → 1 ≤ j → j ≤ h.size → i ≠ j →
      h.slot i ≠ h.slot j := by
    intro i j hi his hj hjs hij heq
    have hii := w.index_slot i hi his
    rw [heq, w.index_slot j hj hjs] at hii
    exact hij hii.symm
  refine ⟨⟨hpos, ?_, ?_, ?_, ?_, ?_⟩, ?_, hslot⟩
  · change h.index v ≤ h.size - 1
    omega
  · intro i hi his hih
    change i ≤ h.size - 1 at his
    rw [hslot i hih, hidx _ (hdistinct i h.size hi (by omega) (by omega) le_rfl (by omega)) ?_]
    · exact w.index_slot i hi (by omega)
    · rw [← hslotv]
      exact hdistinct i _ hi (by omega) hpos hle hih
  · intro i hi his hih
    change i ≤ h.size - 1 at his
    rw [hslot i hih]
    exact hdistinct i h.size hi (by omega) (by omega) le_rfl (by omega)
  · intro u hu hulast
    have huv : u ≠ v := by
      rintro rfl
      exact hu hidxv
    rw [Mem, hidx u hulast huv] at hu
    have hule := w.index_le u hu
    have hune : h.index u ≠ h.size := by
      intro heq
      have hslotu := w.slot_index u hu
      rw [heq] at hslotu
      exact hulast hslotu.symm
    rw [hidx u hulast huv]
    change h.index u ≤ h.size - 1
    omega
  · intro u hu hulast
    have huv : u ≠ v := by
      rintro rfl
      exact hu hidxv
    rw [Mem, hidx u hulast huv] at hu
    have hslotu := w.slot_index u hu
    have hne : h.index u ≠ h.index v := by
      intro heq
      rw [heq, hslotv] at hslotu
      exact huv hslotu.symm
    rw [hidx u hulast huv, hslot _ hne]
    exact ⟨hne, hslotu⟩
  · intro u
    by_cases hulast : u = h.slot h.size
    · subst hulast
      exact ⟨fun _ ↦ ⟨w.slot_mem (by omega) le_rfl, hlastNe⟩, fun _ ↦ Or.inl rfl⟩
    · by_cases huv : u = v
      · subst huv
        simp [hulast, Mem, hidxv]
      · simp [hulast, huv, Mem, hidx u hulast huv]

theorem remove_spec (w : h.WellFormed) (v : α) :
    (h.remove v).WellFormed ∧ ∀ u, (h.remove v).Mem u ↔ h.Mem u ∧ u ≠ v := by
  by_cases hv : h.index v = 0
  · have hrem : h.remove v = h := by simp [remove, hv]
    rw [hrem]
    refine ⟨w, fun u ↦ ⟨fun hu ↦ ⟨hu, ?_⟩, fun hu ↦ hu.1⟩⟩
    rintro rfl
    exact hu hv
  by_cases hlast : h.index v = h.size
  · have hrem : h.remove v = (h.forget v).pop := by
      simp only [remove]
      rw [if_neg hv, if_pos hlast]
    rw [hrem]
    exact forget_pop_spec w hv hlast
  obtain ⟨s, hmem, hslot⟩ := replace_sifting w hv hlast
  have hrem : h.remove v =
      (let h' := ((h.forget v).put (h.index v) (h.slot h.size)).pop
      if 1 < h.index v ∧ h'.slot (h.index v) < h'.slot (h.index v / 2)
      then h'.heapifyUp (h.index v) else h'.heapifyDown (h.index v)) := by
    simp only [remove]
    rw [if_neg hv, if_neg hlast]
  generalize hh : ((h.forget v).put (h.index v) (h.slot h.size)).pop = h' at *
  have hpos : 1 ≤ h.index v := Nat.one_le_iff_ne_zero.mpr hv
  have hle := w.index_le v hv
  have hsize : h'.size = h.size - 1 := by
    rw [← hh]
    rfl
  have hval : h'.slot (h.index v) = h.slot h.size := by
    rw [← hh]
    exact update_self _ _ _
  have hexcept : h'.OrderedExcept (h.index v) := by
    intro i hi his hih hip
    rw [hslot i hih, hslot _ hip]
    exact w.ordered i hi (by omega)
  have hgrand : h'.GrandOrder (h.index v) := by
    intro hhole c hc hcs
    have hup := w.ordered (h.index v) hhole hle
    have hdown := w.ordered c (by omega) (by omega)
    rw [hc] at hdown
    rw [hslot c (by omega), hslot _ (by omega)]
    exact hup.trans hdown
  rw [hrem]
  dsimp only
  split_ifs with hup
  · have hparent := hup.2
    rw [hval] at hparent
    have o : UpOrder h' (h.index v) (h.slot h.size) :=
      ⟨hexcept, hgrand, fun c hc hcs ↦ hparent.le.trans (hgrand (by omega) c hc hcs)⟩
    unfold heapifyUp
    rw [hval]
    obtain ⟨hwf, hrec⟩ := siftUp_spec _ _ _ le_rfl s o
    exact ⟨hwf, fun u ↦ by rw [hrec, hmem]⟩
  · have o : DownOrder h' (h.index v) (h.slot h.size) := by
      refine ⟨hexcept, hgrand, fun hhole ↦ ?_⟩
      rw [← hval]
      exact not_lt.mp fun hlt ↦ hup ⟨by omega, hlt⟩
    unfold heapifyDown
    rw [hval]
    obtain ⟨hwf, hrec⟩ := siftDown_spec h'.size h' (h.index v) (by omega) s o
    exact ⟨hwf, fun u ↦ by rw [hrec, hmem]⟩

end Operations

theorem siftUp_size {val : α} (fuel : ℕ) (h : IndexedHeap α) (hole : ℕ) :
    (siftUp val fuel h hole).size = h.size := by
  induction fuel generalizing h hole with
  | zero => rfl
  | succ fuel ih =>
      unfold siftUp
      split_ifs
      · rfl
      · rfl
      · exact ih _ _

theorem siftDown_size {val : α} (fuel : ℕ) (h : IndexedHeap α) (hole : ℕ) :
    (siftDown val fuel h hole).size = h.size := by
  induction fuel generalizing h hole with
  | zero => rfl
  | succ fuel ih =>
      unfold siftDown
      split_ifs
      · rfl
      · rfl
      · exact ih _ _

/-- Removing a key frees one position. -/
theorem remove_size {h : IndexedHeap α} {v : α} (hv : h.Mem v) :
    (h.remove v).size = h.size - 1 := by
  unfold remove
  dsimp only
  rw [if_neg hv]
  split_ifs
  · rfl
  · exact siftUp_size _ _ _
  · exact siftDown_size _ _ _

/-- The heap with no keys. -/
def empty [Inhabited α] : IndexedHeap α := ⟨0, fun _ ↦ default, fun _ ↦ 0⟩

theorem empty_wellFormed [Inhabited α] : (empty : IndexedHeap α).WellFormed where
  index_slot i hi his := by
    change i ≤ 0 at his
    omega
  index_le v hv := absurd rfl hv
  slot_index v hv := absurd rfl hv
  ordered i hi his := by
    change i ≤ 0 at his
    omega

end IndexedHeap

end ClaimRush
