import Mathlib.Data.List.Chain
import Mathlib.Data.List.Count
import Mathlib.Tactic.Common

/-!
# Ring buffers with counts

A ring of `n` slots that is overwritten in turn holds the last `n` entries of a
history.  A table that is raised for every new entry and lowered for the entry
that it overwrites counts the occurrences in that window.
-/

open Function

namespace ClaimRush

variable {α : Type*}

/-! ## The ring -/

/-- The slots hold the last `n` entries of a history, whose newest entry comes
first; slots that were never written hold `d`. -/
structure RingHolds (n : ℕ) (d : α) (slots : ℕ → α) (history : List α) : Prop where
  entry : ∀ i (h : i < history.length), i < n → slots ((history.length - 1 - i) % n) = history[i]
  blank : ∀ j, history.length ≤ j → j < n → slots j = d

namespace RingHolds

variable {n : ℕ} {d : α} {slots : ℕ → α} {history : List α}

theorem nil (n : ℕ) (d : α) : RingHolds n d (fun _ ↦ d) [] :=
  ⟨fun _ h ↦ absurd h (Nat.not_lt_zero _), fun _ _ _ ↦ rfl⟩

/-- The next slot is blank while the ring fills up. -/
theorem next_blank (h : RingHolds n d slots history) (hn : history.length < n) :
    slots (history.length % n) = d := by
  rw [Nat.mod_eq_of_lt hn]
  exact h.blank _ le_rfl hn

/-- The next slot of a full ring holds the oldest entry of the window. -/
theorem next_oldest (h : RingHolds n d slots history) (hpos : 0 < n) (hn : n ≤ history.length) :
    slots (history.length % n) = history.get ⟨n - 1, by omega⟩ := by
  rw [List.get_eq_getElem, ← h.entry (n - 1) (by omega) (by omega)]
  congr 1
  rw [show history.length - 1 - (n - 1) = history.length - n by omega]
  exact Nat.mod_eq_sub_mod hn

theorem push (h : RingHolds n d slots history) (a : α) :
    RingHolds n d (update slots (history.length % n) a) (a :: history) := by
  constructor
  · rintro (_ | i) hi hin
    · simp
    · rw [List.length_cons, Nat.add_sub_cancel, List.getElem_cons_succ]
      have hlt : i < history.length := Nat.lt_of_succ_lt_succ hi
      have hne : (history.length - (i + 1)) % n ≠ history.length % n := by
        intro heq
        have hzero := Nat.sub_mod_eq_zero_of_mod_eq heq.symm
        rw [Nat.sub_sub_self (by omega)] at hzero
        exact absurd (Nat.le_of_dvd (Nat.succ_pos i) (Nat.dvd_of_mod_eq_zero hzero)) (by omega)
      rw [update_of_ne hne, ← h.entry i hlt (by omega)]
      congr 2
      omega
  · intro j hj hjn
    rw [List.length_cons] at hj
    have hne : j ≠ history.length % n := by
      rw [Nat.mod_eq_of_lt (by omega)]
      omega
    rw [update_of_ne hne]
    exact h.blank j (by omega) hjn

end RingHolds

/-! ## The counts -/

section Counts

variable [DecidableEq α]

/-- A new entry raises its count; the entry that leaves the window loses one. -/
theorem count_take_push (history : List α) {m : ℕ} (hm : m < history.length) (a b : α) :
    ((a :: history).take (m + 1)).count b + (if history[m] = b then 1 else 0) =
      (history.take (m + 1)).count b + if a = b then 1 else 0 := by
  rw [List.take_succ_cons, ← List.take_append_getElem hm, List.count_append, List.count_cons,
    List.count_singleton]
  simp only [beq_iff_eq]
  omega

theorem count_take_fill (history : List α) {n : ℕ} (hn : history.length < n) (a b : α) :
    ((a :: history).take n).count b = (history.take n).count b + if a = b then 1 else 0 := by
  obtain ⟨m, rfl⟩ := Nat.exists_eq_succ_of_ne_zero (Nat.ne_of_gt (Nat.zero_lt_of_lt hn))
  rw [List.take_succ_cons, List.take_of_length_le (by omega), List.take_of_length_le (by omega),
    List.count_cons]
  simp

/-- Neighbours differ, so no entry fills more than every second place. -/
theorem count_le_of_isChain_ne : ∀ {l : List α}, l.IsChain (· ≠ ·) → ∀ a,
    2 * l.count a ≤ l.length + 1
  | [], _, a => by simp
  | [x], _, a => by
      have := List.count_le_length (l := [x]) (a := a)
      simp only [List.length_singleton] at this ⊢
      omega
  | x :: y :: l, h, a => by
      obtain ⟨hxy, htail⟩ := List.isChain_cons_cons.mp h
      have ih := count_le_of_isChain_ne htail.tail a
      have hpair : (if x = a then 1 else 0) + (if y = a then 1 else 0) ≤ 1 := by
        split_ifs with hx hy
        · exact absurd (hx.trans hy.symm) hxy
        all_goals omega
      simp only [List.count_cons, List.length_cons, beq_iff_eq, List.tail_cons] at ih ⊢
      omega

end Counts

end ClaimRush
