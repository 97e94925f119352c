import Mathlib.Algebra.BigOperators.Group.List.Basic
import Mathlib.Logic.Function.Basic

/-!
# Ledgers with two columns

Pots that are filled from two sources, poured into one another and closed.  The ledger
lists what happened; what a pot holds is what was added to the pots that now lie in it.
-/

open Function

namespace ClaimRush

universe u

/-- One line of the ledger. -/
inductive Posting (κ : Type u)
  | add (key : κ) (principal bonus : ℕ)
  | merge (src dst : κ) (bonus : ℕ)
  | close (key : κ)
  deriving DecidableEq, Repr

namespace Posting

variable {κ : Type u}

/-- The pot that a line fills. -/
def filled : Posting κ → Option κ
  | add key _ _ => some key
  | merge _ dst _ => some dst
  | close _ => none

/-- The pot that a line empties for good. -/
def emptied : Posting κ → Option κ
  | add _ _ _ => none
  | merge src _ _ => some src
  | close key => some key

def principal : Posting κ → ℕ
  | add _ principal _ => principal
  | merge _ _ _ => 0
  | close _ => 0

def bonus : Posting κ → ℕ
  | add _ _ bonus => bonus
  | merge _ _ bonus => bonus
  | close _ => 0

variable [DecidableEq κ]

/-- Where a line leaves the content of a pot. -/
def carry : Posting κ → κ → Option κ
  | add _ _ _, k => some k
  | merge src dst _, k => if k = src then some dst else some k
  | close key, k => if k = key then none else some k

end Posting

open Posting

variable {κ : Type u} [DecidableEq κ] {M : Type} [AddCommMonoid M]

/-- Where the content of a pot lies after the lines. -/
def lies : List (Posting κ) → κ → Option κ
  | [], k => some k
  | p :: ps, k => (p.carry k).bind (lies ps)

/-- What the lines have added to the pots that now lie in `k`, in one column. -/
def tally (column : Posting κ → M) : List (Posting κ) → κ → M
  | [], _ => 0
  | p :: ps, k => (if p.filled.bind (lies ps) = some k then column p else 0) + tally column ps k

theorem lies_concat (ps : List (Posting κ)) (p : Posting κ) (k : κ) :
    lies (ps ++ [p]) k = (lies ps k).bind p.carry := by
  induction ps generalizing k with
  | nil => exact Option.bind_fun_some _
  | cons q ps ih =>
    simp only [List.cons_append, lies, Option.bind_assoc]
    exact congrArg (q.carry k).bind (funext ih)

/-- One more line, in general: what lay anywhere is carried by it. -/
theorem tally_concat_cons (column : Posting κ → M) (q : Posting κ) (ps : List (Posting κ))
    (p : Posting κ) (k : κ) :
    tally column (q :: ps ++ [p]) k =
      (if (q.filled.bind (lies ps)).bind p.carry = some k then column q else 0) +
        tally column (ps ++ [p]) k := by
  have hlies : q.filled.bind (lies (ps ++ [p])) = (q.filled.bind (lies ps)).bind p.carry := by
    rw [Option.bind_assoc]
    exact congrArg q.filled.bind (funext fun k ↦ lies_concat ps p k)
  rw [List.cons_append, tally, hlies]

theorem tally_concat_add (column : Posting κ → M) (ps : List (Posting κ)) (key k : κ)
    (principal bonus : ℕ) :
    tally column (ps ++ [add key principal bonus]) k =
      tally column ps k + if k = key then column (add key principal bonus) else 0 := by
  induction ps with
  | nil => simp [tally, lies, filled, eq_comm]
  | cons q ps ih =>
    rw [tally_concat_cons, ih, tally, add_assoc]
    cases q.filled.bind (lies ps) <;> rfl

theorem tally_concat_close (column : Posting κ → M) (ps : List (Posting κ)) (key k : κ) :
    tally column (ps ++ [close key]) k = if k = key then 0 else tally column ps k := by
  induction ps with
  | nil => simp [tally, filled]
  | cons q ps ih =>
    rw [tally_concat_cons, ih, tally]
    cases q.filled.bind (lies ps) with
    | none => simp
    | some j =>
      by_cases hk : k = key
      · subst hk
        by_cases hj : j = k <;> simp [carry, hj]
      · by_cases hj : j = key
        · subst hj
          simp [carry, hk, Ne.symm hk]
        · simp [carry, hk, hj]

theorem tally_concat_merge (column : Posting κ → M) (ps : List (Posting κ)) {src dst : κ}
    (hne : src ≠ dst) (bonus : ℕ) (k : κ) :
    tally column (ps ++ [merge src dst bonus]) k =
      if k = src then 0
      else if k = dst then
        tally column ps src + tally column ps dst + column (merge src dst bonus)
      else tally column ps k := by
  induction ps with
  | nil =>
    by_cases hk : k = src
    · subst hk
      simp [tally, lies, filled, hne.symm]
    · simp [tally, lies, filled, hk, eq_comm]
  | cons q ps ih =>
    rw [tally_concat_cons, ih]
    simp only [tally]
    cases q.filled.bind (lies ps) with
    | none => simp
    | some j =>
      have hcarried : (some j).bind (merge src dst bonus).carry =
          some (if j = src then dst else j) := by
        by_cases hj : j = src <;> simp [carry, hj]
      rw [hcarried]
      simp only [Option.some.injEq]
      by_cases hk : k = src
      · subst hk
        have hnot : (if j = k then dst else j) ≠ k := by
          split
          · exact hne.symm
          · assumption
        rw [if_neg hnot, if_pos rfl, if_pos rfl, add_zero]
      rw [if_neg hk, if_neg hk]
      by_cases hdst : k = dst
      · subst hdst
        rw [if_pos rfl, if_pos rfl]
        by_cases hj : j = src
        · subst hj
          rw [if_pos rfl, if_pos rfl, if_pos rfl, if_neg hne, zero_add, add_assoc, add_assoc,
            add_assoc]
        · rw [if_neg hj, if_neg hj, zero_add]
          simp only [add_assoc, add_left_comm]
      · rw [if_neg hdst, if_neg hdst]
        by_cases hj : j = src
        · subst hj
          rw [if_pos rfl, if_neg (Ne.symm hdst), if_neg (Ne.symm hk)]
        · rw [if_neg hj]

/-! ## Pots kept by a ledger -/

/-- The pots of a system: which are in use, which may still be opened, what each holds and
how much of it is recorded as principal. -/
structure Pots (κ : Type u) where
  live : κ → Prop
  fresh : κ → Prop
  amount : κ → ℕ
  principal : κ → ℕ

/-- The pots hold what the ledger says. -/
structure Tallied (ps : List (Posting κ)) (s : Pots κ) : Prop where
  recorded : ∀ k, s.principal k = tally Posting.principal ps k
  funded : ∀ k, s.live k → 0 < s.principal k
  held : ∀ k, s.live k → s.amount k = s.principal k + tally Posting.bonus ps k
  unused : ∀ k, s.fresh k → ¬ s.live k ∧ s.principal k = 0 ∧ tally Posting.bonus ps k = 0
  ended : ∀ p ∈ ps, ∀ k, p.emptied = some k → ¬ s.live k ∧ ¬ s.fresh k ∧ s.principal k = 0

theorem tallied_nil {s : Pots κ} (hlive : ∀ k, ¬ s.live k) (hprincipal : ∀ k, s.principal k = 0) :
    Tallied [] s where
  recorded := hprincipal
  funded k hk := absurd hk (hlive k)
  held k hk := absurd hk (hlive k)
  unused k _ := ⟨hlive k, hprincipal k, rfl⟩
  ended _ hp := absurd hp List.not_mem_nil

namespace Tallied

variable {ps : List (Posting κ)} {s s' : Pots κ}

/-- Pots may go out of use, with what they hold. -/
theorem keep (h : Tallied ps s) (hprincipal : s'.principal = s.principal)
    (hlive : ∀ k, s'.live k → s.live k ∧ s'.amount k = s.amount k)
    (hfresh : ∀ k, s'.fresh k → s.fresh k) : Tallied ps s' := by
  constructor
  · rw [hprincipal]
    exact h.recorded
  · intro k hk
    rw [hprincipal]
    exact h.funded k (hlive k hk).1
  · intro k hk
    obtain ⟨hk, hamount⟩ := hlive k hk
    rw [hprincipal, hamount]
    exact h.held k hk
  · intro k hk
    obtain ⟨hdead, hzero⟩ := h.unused k (hfresh k hk)
    rw [hprincipal]
    exact ⟨fun hk' ↦ hdead (hlive k hk').1, hzero⟩
  · intro p hp k hk
    obtain ⟨hdead, hold, hzero⟩ := h.ended p hp k hk
    rw [hprincipal]
    exact ⟨fun hk' ↦ hdead (hlive k hk').1, fun hk' ↦ hold (hfresh k hk'), hzero⟩

/-- A pot is filled, and opened when it was fresh. -/
theorem add (h : Tallied ps s) {key : κ} {principal bonus : ℕ}
    (hkey : s.live key ∧ s'.amount key = s.amount key + (principal + bonus) ∨
      s.fresh key ∧ s'.amount key = principal + bonus ∧ 0 < principal)
    (hprincipal : s'.principal = update s.principal key (s.principal key + principal))
    (hothers : ∀ k, k ≠ key → s'.live k → s.live k ∧ s'.amount k = s.amount k)
    (hfresh : ∀ k, s'.fresh k → s.fresh k ∧ k ≠ key) :
    Tallied (ps ++ [.add key principal bonus]) s' := by
  have hlive {k : κ} (hk : s'.live k) : k = key ∨ s.live k := by
    by_cases hkk : k = key
    · exact .inl hkk
    · exact .inr (hothers k hkk hk).1
  have hclosed {p : Posting κ} (hp : p ∈ ps) {k : κ} (hk : p.emptied = some k) : k ≠ key := by
    rintro rfl
    obtain ⟨hdead, hold, -⟩ := h.ended p hp k hk
    rcases hkey with ⟨hkey, -⟩ | ⟨hkey, -⟩
    · exact hdead hkey
    · exact hold hkey
  have hother (k : κ) (hk : k ≠ key) : s'.principal k = s.principal k := by
    rw [hprincipal, update_of_ne hk]
  have hown : s'.principal key = s.principal key + principal := by
    rw [hprincipal, update_self]
  constructor
  · intro k
    rw [tally_concat_add, ← h.recorded]
    by_cases hk : k = key
    · rw [if_pos hk, hk, hown]
      rfl
    · rw [if_neg hk, hother k hk, Nat.add_zero]
  · intro k hk
    by_cases hkk : k = key
    · rw [hkk, hown]
      rcases hkey with ⟨hkey, -⟩ | ⟨-, -, hpos⟩
      · exact Nat.add_pos_left (h.funded key hkey) _
      · exact Nat.add_pos_right _ hpos
    · rw [hother k hkk]
      exact h.funded k (hothers k hkk hk).1
  · intro k hk
    rw [tally_concat_add]
    by_cases hkk : k = key
    · rw [if_pos hkk, hkk, hown]
      change _ = _ + (tally Posting.bonus ps key + bonus)
      rcases hkey with ⟨hkey, hamount⟩ | ⟨hkey, hamount, -⟩
      · have hheld := h.held key hkey
        omega
      · obtain ⟨-, hprincipal₀, hbonus₀⟩ := h.unused key hkey
        omega
    · obtain ⟨hlive₀, hamount⟩ := hothers k hkk hk
      rw [if_neg hkk, Nat.add_zero, hother k hkk, hamount]
      exact h.held k hlive₀
  · intro k hk
    obtain ⟨hk, hkk⟩ := hfresh k hk
    obtain ⟨hdead, hzero, hbonus⟩ := h.unused k hk
    rw [tally_concat_add, if_neg hkk, hother k hkk]
    exact ⟨fun hk' ↦ hdead (hothers k hkk hk').1, hzero, hbonus⟩
  · intro p hp k hk
    rcases List.mem_append.mp hp with hp | hp
    · have hkk := hclosed hp hk
      obtain ⟨hdead, hold, hzero⟩ := h.ended p hp k hk
      rw [hother k hkk]
      exact ⟨fun hk' ↦ hdead (hothers k hkk hk').1, fun hk' ↦ hold (hfresh k hk').1, hzero⟩
    · obtain rfl := List.mem_singleton.mp hp
      cases hk

/-- A pot goes out of use empty. -/
theorem close (h : Tallied ps s) {key : κ} (hkey : ¬ s.fresh key)
    (hprincipal : s'.principal = update s.principal key 0)
    (hlive : ∀ k, s'.live k → k ≠ key ∧ s.live k ∧ s'.amount k = s.amount k)
    (hfresh : ∀ k, s'.fresh k → s.fresh k) : Tallied (ps ++ [.close key]) s' := by
  have hother (k : κ) (hk : k ≠ key) : s'.principal k = s.principal k := by
    rw [hprincipal, update_of_ne hk]
  have hown : s'.principal key = 0 := by
    rw [hprincipal, update_self]
  constructor
  · intro k
    rw [tally_concat_close, ← h.recorded]
    by_cases hk : k = key
    · rw [if_pos hk, hk, hown]
    · rw [if_neg hk, hother k hk]
  · intro k hk
    obtain ⟨hkk, hk, -⟩ := hlive k hk
    rw [hother k hkk]
    exact h.funded k hk
  · intro k hk
    obtain ⟨hkk, hk, hamount⟩ := hlive k hk
    rw [tally_concat_close, if_neg hkk, hother k hkk, hamount]
    exact h.held k hk
  · intro k hk
    have hk := hfresh k hk
    have hkk : k ≠ key := fun heq ↦ hkey (heq ▸ hk)
    obtain ⟨hdead, hzero, hbonus⟩ := h.unused k hk
    rw [tally_concat_close, if_neg hkk, hother k hkk]
    exact ⟨fun hk' ↦ hdead (hlive k hk').2.1, hzero, hbonus⟩
  · intro p hp k hk
    rcases List.mem_append.mp hp with hp | hp
    · obtain ⟨hdead, hold, hzero⟩ := h.ended p hp k hk
      refine ⟨fun hk' ↦ hdead (hlive k hk').2.1, fun hk' ↦ hold (hfresh k hk'), ?_⟩
      by_cases hkk : k = key
      · rw [hkk, hown]
      · rw [hother k hkk, hzero]
    · obtain rfl := List.mem_singleton.mp hp
      obtain rfl := Option.some.inj hk
      exact ⟨fun hk' ↦ (hlive _ hk').1 rfl, fun hk' ↦ hkey (hfresh _ hk'), hown⟩

/-- One pot is poured into another, which may get more. -/
theorem merge (h : Tallied ps s) {src dst : κ} {bonus : ℕ} (hne : src ≠ dst) (hsrc : s.live src)
    (hdst : s.live dst)
    (hprincipal : s'.principal =
      update (update s.principal dst (s.principal src + s.principal dst)) src 0)
    (hamount : s'.amount dst = s.amount src + s.amount dst + bonus)
    (hlive : ∀ k, s'.live k → k ≠ src ∧ s.live k ∧ (k ≠ dst → s'.amount k = s.amount k))
    (hfresh : ∀ k, s'.fresh k → s.fresh k) : Tallied (ps ++ [.merge src dst bonus]) s' := by
  have hother (k : κ) (hk : k ≠ src) (hk' : k ≠ dst) : s'.principal k = s.principal k := by
    rw [hprincipal, update_of_ne hk, update_of_ne hk']
  have hempty : s'.principal src = 0 := by
    rw [hprincipal, update_self]
  have hfull : s'.principal dst = s.principal src + s.principal dst := by
    rw [hprincipal, update_of_ne hne.symm, update_self]
  have hold {k : κ} (hk : s.live k) : ¬ s.fresh k := fun hk' ↦ (h.unused k hk').1 hk
  constructor
  · intro k
    rw [tally_concat_merge _ _ hne, ← h.recorded, ← h.recorded, ← h.recorded]
    by_cases hks : k = src
    · rw [if_pos hks, hks, hempty]
    rw [if_neg hks]
    by_cases hkd : k = dst
    · rw [if_pos hkd, hkd, hfull]
      rfl
    · rw [if_neg hkd, hother k hks hkd]
  · intro k hk
    obtain ⟨hks, hk, -⟩ := hlive k hk
    by_cases hkd : k = dst
    · rw [hkd, hfull]
      exact Nat.add_pos_left (h.funded src hsrc) _
    · rw [hother k hks hkd]
      exact h.funded k hk
  · intro k hk
    obtain ⟨hks, hk, hsame⟩ := hlive k hk
    rw [tally_concat_merge _ _ hne, if_neg hks]
    by_cases hkd : k = dst
    · rw [if_pos hkd, hkd, hfull, hamount]
      have hsrc₀ := h.held src hsrc
      have hdst₀ := h.held dst hdst
      change _ = _ + (_ + _ + bonus)
      omega
    · rw [if_neg hkd, hother k hks hkd, hsame hkd]
      exact h.held k hk
  · intro k hk
    have hk := hfresh k hk
    have hks : k ≠ src := fun heq ↦ hold hsrc (heq ▸ hk)
    have hkd : k ≠ dst := fun heq ↦ hold hdst (heq ▸ hk)
    obtain ⟨hdead, hzero, hbonus⟩ := h.unused k hk
    rw [tally_concat_merge _ _ hne, if_neg hks, if_neg hkd, hother k hks hkd]
    exact ⟨fun hk' ↦ hdead (hlive k hk').2.1, hzero, hbonus⟩
  · intro p hp k hk
    rcases List.mem_append.mp hp with hp | hp
    · obtain ⟨hdead, hused, hzero⟩ := h.ended p hp k hk
      have hkd : k ≠ dst := fun heq ↦ hdead (heq ▸ hdst)
      refine ⟨fun hk' ↦ hdead (hlive k hk').2.1, fun hk' ↦ hused (hfresh k hk'), ?_⟩
      by_cases hks : k = src
      · rw [hks, hempty]
      · rw [hother k hks hkd, hzero]
    · obtain rfl := List.mem_singleton.mp hp
      obtain rfl := Option.some.inj hk
      exact ⟨fun hk' ↦ (hlive _ hk').1 rfl, fun hk' ↦ hold hsrc (hfresh _ hk'), hempty⟩

end Tallied

end ClaimRush
