import Mathlib.Data.List.Rotate
import Mathlib.Data.List.GetD
import Mathlib.Tactic.Common

/-!
# Logs of timed entries

A log lists its entries from the oldest to the newest.  A new entry replaces the
newest one of the same time, and a lookup finds the last entry before a time.
When the log is kept in a ring, position `i` of the log is stored at
`(i + head) % length`; overwriting the head drops the oldest entry.
-/

namespace ClaimRush

variable {α : Type*}

/-! ## Rings -/

/-- The slot written last in a ring of `n` slots. -/
def lastSlot (head n : ℕ) : ℕ := if head = 0 then n - 1 else head - 1

section Ring

variable {l : List α} {head : ℕ}

theorem lastSlot_lt (hhead : head < l.length) : lastSlot head l.length < l.length := by
  unfold lastSlot
  split_ifs <;> omega

/-- The log of a ring ends in the entry of its last slot. -/
theorem rotate_eq_append_last (hhead : head < l.length) :
    l.rotate head = (l.rotate head).dropLast ++
      [l.get ⟨lastSlot head l.length, lastSlot_lt hhead⟩] := by
  have hne : l.rotate head ≠ [] := by
    rw [Ne, List.rotate_eq_nil_iff]
    exact List.ne_nil_of_length_pos (Nat.zero_lt_of_lt hhead)
  have hlast : (l.rotate head).getLast hne = l.get ⟨lastSlot head l.length, lastSlot_lt hhead⟩ := by
    rw [List.getLast_eq_getElem, List.getElem_rotate, List.get_eq_getElem]
    congr 1
    rw [List.length_rotate]
    change (l.length - 1 + head) % l.length = lastSlot head l.length
    unfold lastSlot
    split_ifs with hzero
    · rw [hzero, Nat.add_zero, Nat.mod_eq_of_lt (by omega)]
    · rw [show l.length - 1 + head = head - 1 + l.length by omega, Nat.add_mod_right,
        Nat.mod_eq_of_lt (by omega)]
  rw [← hlast, List.dropLast_append_getLast]

theorem rotate_eq_head_cons (hhead : head < l.length) :
    l.rotate head = l[head] :: (l.rotate head).tail := by
  rw [List.rotate_eq_drop_append_take hhead.le, List.drop_eq_getElem_cons hhead]
  rfl

/-- Overwriting the last slot replaces the newest entry. -/
theorem rotate_set_last (hhead : head < l.length) (c : α) :
    (l.set (lastSlot head l.length) c).rotate head = (l.rotate head).dropLast ++ [c] := by
  unfold lastSlot
  split_ifs with hzero
  · have hne : l ≠ [] := List.ne_nil_of_length_pos (Nat.zero_lt_of_lt hhead)
    rw [hzero, List.rotate_zero, List.rotate_zero]
    conv_lhs => rw [← List.dropLast_append_getLast hne]
    rw [List.set_append_right _ _ (by simp)]
    simp
  · have htake : l.take head = l.take (head - 1) ++ [l[head - 1]] := by
      conv_lhs => rw [show head = head - 1 + 1 by omega]
      exact List.take_succ_eq_append_getElem (by omega)
    have hlength : (l.take (head - 1)).length = head - 1 := by
      rw [List.length_take]
      omega
    rw [List.rotate_eq_drop_append_take (by simpa using hhead.le),
      List.rotate_eq_drop_append_take hhead.le, List.drop_set_of_lt (by omega),
      List.take_set, htake,
      List.set_append_right _ _ hlength.le, ← List.append_assoc, ← List.append_assoc,
      List.dropLast_concat, hlength]
    simp

/-- Overwriting the head drops the oldest entry and appends the new one. -/
theorem rotate_set_head (hhead : head < l.length) (c : α) :
    (l.set head c).rotate ((head + 1) % l.length) = (l.rotate head).tail ++ [c] := by
  have hmod := List.rotate_mod (l.set head c) (head + 1)
  have hlength : (l.take head).length = head := by
    rw [List.length_take]
    omega
  rw [List.length_set] at hmod
  rw [hmod, List.rotate_eq_drop_append_take (by simpa using Nat.succ_le_of_lt hhead),
    List.rotate_eq_drop_append_take hhead.le, List.drop_set_of_lt (by omega), List.take_set,
    List.take_succ_eq_append_getElem hhead, List.set_append_right _ _ hlength.le, hlength,
    List.drop_eq_getElem_cons hhead, List.cons_append, List.tail_cons, Nat.sub_self,
    List.set_cons_zero, List.append_assoc]

end Ring

/-! ## Timed logs -/

section Timed

variable (time : α → ℕ)

/-- Add an entry; the newest entry of the same time is replaced. -/
def pushEntry (l : List α) (c : α) : List α :=
  if l.getLast?.map time = some (time c) then l.dropLast ++ [c] else l ++ [c]

/-- The last entry before `t`, found by a scan from the end. -/
def lastBefore (l : List α) (t : ℕ) : Option α := l.reverse.find? fun a ↦ time a < t

variable {time} {l xs ys : List α} {c : α} {t : ℕ}

theorem lastBefore_append : lastBefore time (xs ++ ys) t =
    (lastBefore time ys t).or (lastBefore time xs t) := by
  unfold lastBefore
  rw [List.reverse_append, List.find?_append]

theorem lastBefore_singleton :
    lastBefore time [c] t = if time c < t then some c else none := by
  by_cases h : time c < t <;> simp [lastBefore, h]

theorem lastBefore_concat : lastBefore time (l ++ [c]) t =
    if time c < t then some c else lastBefore time l t := by
  rw [lastBefore_append, lastBefore_singleton]
  split_ifs <;> rfl

theorem pushEntry_eq_concat (h : ∀ a ∈ l.getLast?, time a ≠ time c) :
    pushEntry time l c = l ++ [c] := by
  refine if_neg fun heq ↦ ?_
  obtain ⟨a, ha, htime⟩ := Option.map_eq_some_iff.mp heq
  exact h a ha htime

theorem pushEntry_ne_nil (l : List α) (c : α) : pushEntry time l c ≠ [] := by
  unfold pushEntry
  split_ifs <;> simp

/-- The replaced entry is no later than the new one, so no lookup misses it. -/
theorem lastBefore_pushEntry : lastBefore time (pushEntry time l c) t =
    if time c < t then some c else lastBefore time l t := by
  unfold pushEntry
  split_ifs with hsame hlt hlt
  · rw [lastBefore_concat, if_pos hlt]
  · obtain ⟨a, ha, htime⟩ := Option.map_eq_some_iff.mp hsame
    have hsplit : l = l.dropLast ++ [a] := (List.dropLast_append_getLast? a ha).symm
    rw [lastBefore_concat, if_neg hlt]
    conv_rhs => rw [hsplit]
    rw [lastBefore_concat, if_neg (htime ▸ hlt)]
  · rw [lastBefore_concat, if_pos hlt]
  · rw [lastBefore_concat, if_neg hlt]

theorem lastBefore_append_pushEntry : lastBefore time (xs ++ pushEntry time ys c) t =
    if time c < t then some c else lastBefore time (xs ++ ys) t := by
  rw [lastBefore_append, lastBefore_pushEntry, lastBefore_append]
  split_ifs <;> rfl

/-- Entries at or after `t` do not matter. -/
theorem lastBefore_eq_none (h : ∀ a ∈ l, t ≤ time a) : lastBefore time l t = none :=
  List.find?_eq_none.mpr fun a ha ↦ by simpa using h a (List.mem_reverse.mp ha)

theorem lastBefore_isSome {a : α} (ha : a ∈ l) (hlt : time a < t) :
    (lastBefore time l t).isSome :=
  List.find?_isSome.mpr ⟨a, List.mem_reverse.mpr ha, by simpa using hlt⟩

theorem lastBefore_mem {a : α} (h : lastBefore time l t = some a) : a ∈ l ∧ time a < t :=
  ⟨List.mem_reverse.mp (List.mem_of_find?_eq_some h), by simpa using List.find?_some h⟩

theorem mem_pushEntry {a : α} (h : a ∈ pushEntry time l c) : a ∈ l ∨ a = c := by
  unfold pushEntry at h
  split_ifs at h
  · rcases List.mem_append.mp h with h | h
    · exact .inl (List.dropLast_subset l h)
    · exact .inr (List.mem_singleton.mp h)
  · rcases List.mem_append.mp h with h | h
    · exact .inl h
    · exact .inr (List.mem_singleton.mp h)

theorem pushEntry_sublist (l : List α) (c : α) : (pushEntry time l c).Sublist (l ++ [c]) := by
  unfold pushEntry
  split_ifs
  · exact (List.dropLast_sublist l).append (List.Sublist.refl [c])
  · exact List.Sublist.refl _

theorem pushEntry_append (xs : List α) (hne : ys ≠ []) :
    pushEntry time (xs ++ ys) c = xs ++ pushEntry time ys c := by
  unfold pushEntry
  rw [List.getLast?_append_of_ne_nil _ hne]
  split_ifs
  · rw [List.dropLast_append_of_ne_nil hne, List.append_assoc]
  · rw [List.append_assoc]

/-- The oldest time of a log does not change. -/
theorem headD_pushEntry (hne : l ≠ []) (d : ℕ) :
    ((pushEntry time l c).map time).headD d = (l.map time).headD d := by
  cases l with
  | nil => exact absurd rfl hne
  | cons a l =>
      cases l with
      | nil =>
          unfold pushEntry
          split_ifs with hsame
          · simpa [eq_comm] using hsame
          · rfl
      | cons b l =>
          unfold pushEntry
          split_ifs <;> rfl

/-- A log without two entries of one time keeps that property. -/
theorem pairwise_lt_pushEntry (hl : l.Pairwise fun a b ↦ time a < time b)
    (hle : ∀ a ∈ l, time a ≤ time c) :
    (pushEntry time l c).Pairwise fun a b ↦ time a < time b := by
  have hinit : ∀ b ∈ l.getLast?, ∀ a ∈ l.dropLast, time a < time b := by
    intro b hb a ha
    have hsplit : l = l.dropLast ++ [b] := (List.dropLast_append_getLast? b hb).symm
    rw [hsplit] at hl
    exact (List.pairwise_append.mp hl).2.2 a ha b List.mem_cons_self
  have hdrop := hl.sublist (List.dropLast_sublist l)
  unfold pushEntry
  split_ifs with hsame
  · obtain ⟨b, hb, htime⟩ := Option.map_eq_some_iff.mp hsame
    refine List.pairwise_append.mpr ⟨hdrop, List.pairwise_singleton _ _, ?_⟩
    intro a ha x hx
    rw [List.mem_singleton.mp hx, ← htime]
    exact hinit b hb a ha
  · refine List.pairwise_append.mpr ⟨hl, List.pairwise_singleton _ _, ?_⟩
    intro a ha x hx
    rw [List.mem_singleton.mp hx]
    refine (hle a ha).lt_of_ne fun heq ↦ hsame ?_
    -- An entry at the time of the new one could only be the newest.
    cases hlast : l.getLast? with
    | none =>
        rw [List.getLast?_eq_none_iff.mp hlast] at ha
        cases ha
    | some b =>
        have hsplit : l = l.dropLast ++ [b] := (List.dropLast_append_getLast? b hlast).symm
        have hmem : a ∈ l.dropLast ++ [b] := hsplit ▸ ha
        have hb := hle b (List.mem_of_getLast? hlast)
        rcases List.mem_append.mp hmem with hinner | hend
        · have hlt := hinit b hlast a hinner
          omega
        · rw [List.mem_singleton.mp hend] at heq
          rw [Option.map_some, heq]

theorem pairwise_le_pushEntry (hl : l.Pairwise fun a b ↦ time a ≤ time b)
    (hle : ∀ a ∈ l, time a ≤ time c) :
    (pushEntry time l c).Pairwise fun a b ↦ time a ≤ time b := by
  have hconcat {m : List α} (hsub : m.Sublist l) : (m ++ [c]).Pairwise fun a b ↦ time a ≤ time b :=
    List.pairwise_append.mpr ⟨hl.sublist hsub, List.pairwise_singleton _ _, fun a ha x hx ↦ by
      rw [List.mem_singleton.mp hx]
      exact hle a (hsub.subset ha)⟩
  unfold pushEntry
  split_ifs
  · exact hconcat (List.dropLast_sublist l)
  · exact hconcat (List.Sublist.refl l)

end Timed

end ClaimRush
